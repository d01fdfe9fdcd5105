/-
PocketLisp/Proofs/RoundTrip.lean

Printed data reads back.

A value is readable (`Value.Readable`) if it is made of the empty list, `t`,
finite numbers, texts, symbols whose names are read as they are, and proper
lists.  Its printed form is a form of the grammar, up to the next delimiter
(`Value.Readable.reads`), and stands for a value of the same content
(`Value.Readable.build`).

Main result: a text that holds printed values with gaps between them
(`Spelling`) is read as data into as many equal values (`drain_spelling`).
That the printed form of a number reads back to the number is assumed of the
numbers in the values (`Number.ReadsBack`); it does for every finite number, as
is proved from the search for the fewest digits (`Number.readsBack`).
-/
import Mathlib.Data.List.Forall2
import PocketLisp.Engine
import PocketLisp.Proofs.Content
import PocketLisp.Proofs.Grammar
import PocketLisp.Proofs.Interning

namespace PocketLisp

/-! ### Readable values -/

/-- The written form of a number is a decimal literal of this number. -/
def Number.ReadsBack (x : Float) : Prop := Number.parse? (Number.written x) = some x

/-- A symbol of a table whose name is read as this symbol. -/
structure Symbol.Readable (table : SymbolTable) (s : Symbol) : Prop where
  interned : ∃ name, table.lookup? name = some s
  folded : table.caseRule.fold s.name = s.name
  word : Word s.name.toList
  notNumber : Number.parse? s.name.toList = none
  notNil : s.keyword ≠ some .nil
  notT : s.keyword ≠ some .t

namespace Symbol.Readable

variable {table : SymbolTable} {s : Symbol}

/-- A readable symbol is what its own name stands for. -/
theorem lookup?_name (h : s.Readable table) : table.lookup? s.name = some s := by
  obtain ⟨name, hname⟩ := h.interned
  obtain ⟨index, hindex, hs⟩ := Option.map_eq_some_iff.mp hname
  have hfold : s.name = table.caseRule.fold name := by rw [← hs]; rfl
  rw [SymbolTable.lookup?, h.folded, hfold, hindex]
  exact congrArg some hs

theorem atom_eq (h : s.Readable table) : s.atom = .symbol s := by
  have hnil := h.notNil
  have ht := h.notT
  unfold Symbol.atom
  split <;> simp_all

end Symbol.Readable

/-- Values whose printed form can be read. -/
inductive Value.Readable (table : SymbolTable) : Value → Prop
  | nil : Readable table .nil
  | t : Readable table .t
  | number {x : Float} : x.isFinite = true → Readable table (.number x)
  | text {id : ObjectId} {content : String} : Readable table (.text id content)
  | symbol {s : Symbol} : s.Readable table → Readable table (.symbol s)
  /-- a proper list: what follows the first element is a list -/
  | cons {id : ObjectId} {a d : Value} : Readable table a → d.isList = true → Readable table d →
      Readable table (.cons id a d)

namespace Value

/-- How deeply lists are nested in the elements of a value, and in the value itself. -/
def nesting : Value → Nat
  | .cons _ a d => max (a.nesting + 1) d.nesting
  | _ => 0

/-- The datum that a value is printed as; a list is also printed as the elements of one. -/
def datum : Value → (p : Part) → Datum p
  | .cons _ a d, .form => .list (.more (a.datum .form) (d.datum .items))
  | .cons _ a d, .items => .more (a.datum .form) (d.datum .items)
  | .nil, .form => .symbol Keyword.nil.spelling
  | .t, .form => .symbol Keyword.t.spelling
  | .number x, .form => .number x
  | .text _ content, .form => .text content
  | .symbol s, .form => .symbol s.name
  | .function _, .form => .symbol ""
  | _, .items => .none

/-! ### The printed form of a value is a form of the grammar -/

/-- What follows an element of a list ends the element. -/
theorem boundary_writtenTail {v : Value} (h : v.isList = true) (rest : Source) :
    Boundary (v.writtenTail ++ rest) := by
  cases v with
  | nil => exact boundary_cons (by decide) _
  | cons id a d => exact boundary_cons (by decide) _
  | _ => simp [isList] at h

theorem reads_symbol {cs rest : Source} (hword : Word cs) (hnumber : Number.parse? cs = none)
    (hrest : Boundary rest) : Reads (cs ++ rest) (.symbol (String.ofList cs)) rest := by
  refine .symbol ((Token.next_word hword hrest).trans ?_)
  rw [Token.ofAtom, hnumber]

/-- A readable value is printed as a form, up to the boundary behind it, and a readable list as the
elements of a list. -/
theorem Readable.reads {table : SymbolTable} {v : Value} (h : v.Readable table)
    (hnumbers : ∀ x ∈ v.numbers, Number.ReadsBack x) :
    (∀ rest, Boundary rest → Reads (v.written ++ rest) (v.datum .form) rest) ∧
      (v.isList = true → ∀ rest, Reads (v.writtenTail ++ rest) (v.datum .items) rest) := by
  induction h with
  | nil =>
    refine ⟨fun rest hrest => ?_, fun _ rest => .none (Token.next_rightParen rest)⟩
    exact reads_symbol (.of_all (by decide) (by decide) (by decide)) (by decide) hrest
  | t =>
    refine ⟨fun rest hrest => ?_, by rintro ⟨⟩⟩
    exact reads_symbol (.of_all (by decide) (by decide) (by decide)) (by decide) hrest
  | @number x _ =>
    have hx : Number.ReadsBack x := hnumbers x (by simp [numbers])
    refine ⟨fun rest hrest => .number ((Token.next_word (.of_parse? hx) hrest).trans ?_),
      by rintro ⟨⟩⟩
    rw [Token.ofAtom, hx]
  | @text id content =>
    refine ⟨fun rest _ => .text ((Token.next_quote content.toList rest).trans ?_), by rintro ⟨⟩⟩
    rw [String.ofList_toList]
  | @symbol s hs =>
    refine ⟨fun rest hrest => ?_, by rintro ⟨⟩⟩
    have hreads := reads_symbol hs.word hs.notNumber hrest
    rwa [String.ofList_toList] at hreads
  | @cons id a d _ hd _ iha ihd =>
    -- the list as a form of its own, and as the tail of one that is open
    obtain ⟨ha, -⟩ := iha fun x hx => hnumbers x (List.mem_append_left _ hx)
    obtain ⟨-, htail⟩ := ihd fun x hx => hnumbers x (List.mem_append_right _ hx)
    have hitems : ∀ rest, Reads (a.written ++ (d.writtenTail ++ rest))
        (.more (a.datum .form) (d.datum .items)) rest :=
      fun rest => .more (ha _ (boundary_writtenTail hd rest)) (htail hd rest)
    refine ⟨fun rest _ => ?_, fun _ rest => ?_⟩
    · simp only [written, List.cons_append, List.append_assoc]
      exact .list (Token.next_leftParen _) (hitems rest)
    · simp only [writtenTail, List.cons_append, List.append_assoc]
      exact (hitems rest).of_next (Token.next_space _)

/-! ### The printed form stands for a value of the same content -/

/-- A readable value is printed as a datum that stands for a value of the same content, and all
names of the table keep their symbols. -/
theorem Readable.build {table : SymbolTable} {v : Value} (h : v.Readable table) {env : FrameId}
    {s : Store} (hs : table.Extends (s.symbols env)) :
    (((v.datum .form).build env s).1.bare = v.bare ∧
        table.Extends (((v.datum .form).build env s).2.symbols env)) ∧
      (v.isList = true → bareList ((v.datum .items).build env s).1 = v.bare ∧
        table.Extends (((v.datum .items).build env s).2.symbols env)) := by
  induction h generalizing s with
  | nil =>
    refine ⟨⟨?_, hs.trans (s.extends_intern env _)⟩, fun _ => ⟨rfl, hs⟩⟩
    have hkeyword := s.keyword_intern_spelling env .nil
    simp [datum, Datum.build, Symbol.atom, hkeyword]
  | t =>
    refine ⟨⟨?_, hs.trans (s.extends_intern env _)⟩, by rintro ⟨⟩⟩
    have hkeyword := s.keyword_intern_spelling env .t
    simp [datum, Datum.build, Symbol.atom, hkeyword]
  | number _ => exact ⟨⟨rfl, hs⟩, by rintro ⟨⟩⟩
  | text => exact ⟨⟨rfl, hs⟩, by rintro ⟨⟩⟩
  | @symbol symbol hsymbol =>
    refine ⟨⟨?_, hs.trans (s.extends_intern env _)⟩, by rintro ⟨⟩⟩
    -- the name finds the symbol that it named
    have hintern : (s.intern env symbol.name).1 = symbol :=
      Store.intern_of_lookup? (hs.lookup? hsymbol.lookup?_name)
    simp only [datum, Datum.build, hintern, hsymbol.atom_eq]
  | @cons id a d _ hd _ iha ihd =>
    obtain ⟨⟨ha, hext⟩, -⟩ := iha hs
    obtain ⟨-, htail⟩ := ihd hext
    obtain ⟨hd', hext'⟩ := htail hd
    have hitems : bareList (((a.datum .form).build env s).1 ::
        ((d.datum .items).build env ((a.datum .form).build env s).2).1) =
          (Value.cons id a d).bare := by
      rw [bareList_cons, ha, hd']
      rfl
    refine ⟨⟨?_, hext'⟩, fun _ => ⟨hitems, hext'⟩⟩
    exact (bare_chain_reverse _ _ _).trans hitems

/-! ### Room and calls -/

/-- The datum of a value is nested as deeply as the value. -/
theorem nesting_datum (v : Value) :
    (v.datum .form).nesting = v.nesting ∧ (v.datum .items).nesting = v.nesting - 1 := by
  induction v with
  | cons id a d iha ihd =>
    obtain ⟨ha, -⟩ := iha
    obtain ⟨-, hd⟩ := ihd
    simp only [datum, Datum.nesting, nesting, ha, hd]
    omega
  | _ => exact ⟨rfl, rfl⟩

/-- Printed forms hold no quote marks, so only lists take calls. -/
theorem calls_datum (v : Value) :
    (v.datum .form).calls ≤ v.nesting + 1 ∧ (v.datum .items).calls ≤ v.nesting := by
  induction v with
  | cons id a d iha ihd =>
    obtain ⟨ha, -⟩ := iha
    obtain ⟨-, hd⟩ := ihd
    simp only [datum, Datum.calls, nesting]
    omega
  | _ => exact ⟨Nat.le_refl _, Nat.le_refl _⟩

end Value

/-! ### Texts that hold printed values -/

/-- The printed forms of values, one behind the other, with a gap behind each that is not empty,
except perhaps behind the last one. -/
inductive Spelling : List Value → Source → Prop
  | none {gap : Source} : Gap gap → Spelling [] gap
  | last {v : Value} {gap : Source} : Gap gap → Spelling [v] (v.print.toList ++ gap)
  | more {v w : Value} {vs : List Value} {gap text : Source} : Gap gap → gap ≠ [] →
      Spelling (w :: vs) text → Spelling (v :: w :: vs) (v.print.toList ++ (gap ++ text))

/-- The numbers in readable values are finite. -/
theorem Value.Readable.finite {table : SymbolTable} {v : Value} (h : v.Readable table) :
    ∀ x ∈ v.numbers, x.isFinite = true := by
  induction h with
  | number hx => simpa [Value.numbers] using hx
  | cons _ _ _ iha ihd =>
    intro x hx
    rcases List.mem_append.mp hx with hx | hx
    · exact iha x hx
    · exact ihd x hx
  | _ => simp [Value.numbers]

section Draining

variable {env : FrameId} {table : SymbolTable} {rounds calls room : Nat} {s : Store}

/-- A value is read from the front of a text that starts with its printed form. -/
theorem Value.Readable.form {v : Value} (h : v.Readable table)
    (hnumbers : ∀ x ∈ v.numbers, Number.ReadsBack x) (hnesting : v.nesting ≤ room)
    (hcalls : room < calls) (hs : table.Extends (s.symbols env)) (hroom : s.room env = room)
    {rest : Source} (hrest : Boundary rest) {text : Source}
    (htext : text = v.print.toList ++ rest) :
    rest.length < text.length ∧ text.skip ≠ [] ∧
      ∃ w t, (run rounds calls).form .data env text.skip s = (.ok (.ok w, rest), t) ∧
        v.equal w = true ∧ table.Extends (t.symbols env) ∧ t.room env = room := by
  have hreads : Reads text (v.datum .form) rest := by
    rw [htext, Value.toList_print]
    exact (h.reads hnumbers).1 rest hrest
  -- the datum is no deeper than the value, so the data read of it succeeds
  have hform : (run rounds calls).form .data env text.skip s = _ :=
    (hreads.of_next (Token.next_skip text)).dataRead
      (Nat.le_trans v.calls_datum.1 (Nat.lt_of_le_of_lt hnesting hcalls))
      (by rw [v.nesting_datum.1, hroom]; exact hnesting)
  obtain ⟨⟨hbare, hext⟩, -⟩ := h.build hs
  refine ⟨hreads.length_lt, hreads.skip_ne_nil, _, _, hform, ?_, hext, ?_⟩
  · exact Value.equal_of_bare hbare.symm h.finite
  · rw [Datum.room_build, hroom]

/-- The values are read one behind the other. -/
theorem drainFrom_spelling {vs : List Value} {text : Source} (htext : Spelling vs text)
    (hvs : ∀ v ∈ vs, v.Readable table)
    (hnumbers : ∀ v ∈ vs, ∀ x ∈ v.numbers, Number.ReadsBack x)
    (hnesting : ∀ v ∈ vs, v.nesting ≤ room) (hcalls : room < calls)
    (hs : table.Extends (s.symbols env)) (hroom : s.room env = room) {fuel : Nat}
    (hfuel : text.length < fuel) (forms : List Value) :
    ∃ ws t, Run.drainFrom (run rounds calls) .data env fuel forms text s =
        (.ok (.ok (forms.reverse ++ ws), []), t) ∧
      List.Forall₂ (fun v w => v.equal w = true) vs ws := by
  induction htext generalizing s fuel forms with
  | @none gap h =>
    obtain ⟨fuel, rfl⟩ := Nat.exists_eq_add_one.mpr (Nat.zero_lt_of_lt hfuel)
    refine ⟨[], s, ?_, .nil⟩
    rw [drainFrom_nil _ _ _ _ h.skip, List.append_nil]
  | @last v gap h =>
    obtain ⟨hlt, hne, w, t, hform, hequal, -⟩ := (hvs v (by simp)).form
      (hnumbers v (by simp)) (hnesting v (by simp)) hcalls hs hroom h.boundary_self rfl
    -- one round for the value, and one that finds the end of the text
    obtain ⟨fuel, rfl⟩ : ∃ n, fuel = n + 1 + 1 := ⟨fuel - 2, by omega⟩
    refine ⟨[w], t, ?_, .cons hequal .nil⟩
    rw [drainFrom_cons _ _ _ _ hne hform, drainFrom_nil _ _ _ _ h.skip, List.reverse_cons]
  | @more v w vs gap text h hgap _ ih =>
    obtain ⟨hlt, hne, w', t, hform, hequal, hext, hroom'⟩ := (hvs v (by simp)).form
      (hnumbers v (by simp)) (hnesting v (by simp)) hcalls hs hroom (h.boundary hgap text) rfl
    obtain ⟨fuel, rfl⟩ : ∃ n, fuel = n + 1 + 1 := ⟨fuel - 2, by omega⟩
    rw [List.length_append] at hlt
    obtain ⟨ws, t', hothers, hequals⟩ := ih (fun u hu => hvs u (List.mem_cons_of_mem _ hu))
      (fun u hu => hnumbers u (List.mem_cons_of_mem _ hu))
      (fun u hu => hnesting u (List.mem_cons_of_mem _ hu)) hext hroom'
      (show text.length < fuel + 1 by omega) (w' :: forms)
    refine ⟨w' :: ws, t', ?_, .cons hequal hequals⟩
    -- the gap is passed over together with the front of the next value
    rw [drainFrom_cons _ _ _ _ hne hform, drainFrom_gap h, hothers, List.reverse_cons,
      List.append_assoc]
    rfl

end Draining

/-- A text that holds the printed forms of readable values is read as data, to its end, into as many
equal values. -/
theorem drain_spelling {s : Store} {env : FrameId} {vs : List Value} {text : Source}
    (hvs : ∀ v ∈ vs, v.Readable (s.symbols env))
    (hnumbers : ∀ v ∈ vs, ∀ x ∈ v.numbers, Number.ReadsBack x)
    (hnesting : ∀ v ∈ vs, v.nesting ≤ s.room env) (htext : Spelling vs text) {a : Allowance}
    (ha : s.room env < a.calls) :
    ∃ ws t, Run.drain a.run .data env text s = (.ok (.ok ws, []), t) ∧
      List.Forall₂ (fun v w => v.equal w = true) vs ws :=
  drainFrom_spelling htext hvs hnumbers hnesting ha (.refl _) rfl (Nat.lt_succ_self _) []

/-- A list and a text with a comment between them are read back. -/
theorem drain_spelling_of_two :
    let s := (((Store.empty .empty).addRealm .preserve 2).2.intern 0 "ab").2
    let v : Value := .cons 1 (.symbol ⟨0, 0, "ab", none⟩) (.cons 2 (.number 0.5) .nil)
    let w : Value := .text 3 "a\n"
    let text : Source := v.print.toList ++ ("; c\n".toList ++ (w.print.toList ++ []))
    ∃ ws t, Run.drain (Allowance.run ⟨4, 1⟩) .data 0 text s = (.ok (.ok ws, []), t) ∧
      List.Forall₂ (fun v w => v.equal w = true) [v, w] ws := by
  intro s v w text
  have hsymbol : Symbol.Readable (s.symbols 0) ⟨0, 0, "ab", none⟩ :=
    ⟨⟨"ab", by decide +kernel⟩, by decide +kernel, .of_all (by decide) (by decide) (by decide),
      by decide +kernel, by decide, by decide⟩
  have hv : v.Readable (s.symbols 0) :=
    .cons (.symbol hsymbol) rfl (.cons (.number (by decide +kernel)) rfl .nil)
  have hnumber : Number.ReadsBack 0.5 := by
    show Number.parse? (Number.written 0.5) = some 0.5
    decide +kernel
  -- a comment between the two values
  have hgap : Gap (';' :: ([' ', 'c'] ++ '\n' :: [])) := .comment (by decide) .none
  refine drain_spelling ?_ ?_ ?_ (.more hgap (by decide) (.last .none)) (by decide +kernel)
  · simp [hv, w, Value.Readable.text]
  · simp [v, w, Value.numbers, hnumber]
  · simp [v, w, Value.nesting]
    decide +kernel

end PocketLisp
