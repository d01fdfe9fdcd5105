import PocketLisp.Console
import PocketLisp.Engine
import PocketLisp.Interpreter
import PocketLisp.Main
import PocketLisp.Proofs.Activity
import PocketLisp.Proofs.Levels
import PocketLisp.Proofs.Content
import PocketLisp.Proofs.Grammar
import PocketLisp.Proofs.Growth
import PocketLisp.Proofs.Interning
import PocketLisp.Proofs.Lexing
import PocketLisp.Proofs.Limit
import PocketLisp.Proofs.Lockstep
import PocketLisp.Proofs.Nesting
import PocketLisp.Proofs.RoundTrip
import PocketLisp.Proofs.RunLockstep
import PocketLisp.Proofs.Steps
import PocketLisp.Proofs.Expansion
import PocketLisp.Proofs.CodeReading
import PocketLisp.Proofs.Splitting
import PocketLisp.Proofs.Heap
import PocketLisp.Proofs.Keeping
import PocketLisp.Proofs.RunKeeping
import PocketLisp.Proofs.Retaining
import PocketLisp.Proofs.Creation
import PocketLisp.Proofs.Constants
import PocketLisp.Proofs.Confinement
import PocketLisp.Proofs.Recursion
import PocketLisp.Proofs.NormalForm
import PocketLisp.Proofs.Offence
import PocketLisp.Proofs.Composition
import PocketLisp.Proofs.Delivery
import PocketLisp.Proofs.Normalization
import PocketLisp.Proofs.Folding
import PocketLisp.Proofs.Rereading
import PocketLisp.Proofs.Packing
import PocketLisp.Proofs.Rounding
import PocketLisp.Proofs.Identity
import PocketLisp.Proofs.Draining
import PocketLisp.Proofs.Callers
import PocketLisp.Proofs.CompleteInput
import PocketLisp.Proofs.PlainCode
import PocketLisp.Proofs.Refolding
import PocketLisp.Proofs.Generation
import PocketLisp.Proofs.Calling
import PocketLisp.Proofs.Lines
import PocketLisp.Proofs.Rebinding
import PocketLisp.Proofs.SpecialForms
import PocketLisp.Proofs.ParameterLists
import PocketLisp.Proofs.Operands
import PocketLisp.Proofs.Exhausting
import PocketLisp.Proofs.Unrolling
import PocketLisp.Proofs.Equality
import PocketLisp.Proofs.Clusters
import PocketLisp.Proofs.Indices
import PocketLisp.Proofs.Sequences
import PocketLisp.Proofs.Appending
import PocketLisp.Proofs.Ordering
import PocketLisp.Proofs.Progressions
import PocketLisp.Proofs.DottedForms
import PocketLisp.Proofs.Spelling
import PocketLisp.Proofs.Progress
import PocketLisp.Proofs.Chains
import PocketLisp.Proofs.LetterCase
