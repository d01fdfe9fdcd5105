/-
PocketLisp/Proofs/Constants.lean

Constants never change.

`Operation` is what a host may ask of an engine, `History` what stores come
about by sequences of such operations, each with an allowance of its own and
whatever its outcome.  Every operation retains the constants of the store
(`Operation.keeps`), so a history does (`History.holds`).

Main result: `constants_kept`.  A symbol that is a constant of an engine stays
one, no frame of the engine binds it other than before, and no frame that is
made later binds it at all; so the names of the empty list and of truth stand
for these in every frame of every engine.
-/
import PocketLisp.Proofs.Creation
import PocketLisp.Proofs.RunKeeping

namespace PocketLisp

open Invariant

variable {α : Type}

/-! ### Operations of a host -/

/-- What a host may ask of an engine, each with the type of the answer. -/
inductive Operation : Type → Type
  | create (config : Config) : Operation Engine
  /-- makes a global frame without an engine -/
  | environment (caseRule : CaseRule) (maxDepth : Nat) : Operation FrameId
  | evaluate (e : Engine) (content : String) : Operation Value
  | evaluateLines (e : Engine) (lines : List String) : Operation Value
  | readForm (e : Engine) (content : String) : Operation Value
  | setVariable (e : Engine) (name : String) (v : Value) : Operation Unit
  | setHostVariable (e : Engine) (name : String) (x : HostValue) : Operation Unit
  | getVariable (e : Engine) (name : String) : Operation Value
  | makeConstant (e : Engine) (name : String) : Operation Unit
  | isConstant (e : Engine) (name : String) : Operation Bool
  | defineExpander (e : Engine) (name : String) (v : Value) : Operation Unit
  | register (e : Engine) (name : String) (arity : Arity) (f : HostFunction) : Operation Unit
  | subscribe (e : Engine) (react : String → HostProgram) : Operation Unit
  | expand (form : Value) (env : FrameId) : Operation Value
  /-- evaluates a form, calls a function or binds a symbol, in any frame -/
  | program (p : HostProgram) : Operation Value
  | drop (e : Engine) : Operation Unit

/-- Runs the initial program, if there is one, given a way to carry out calls. -/
def Engine.startBy (self : Recur) (e : Engine) (initFile : Option String) : Run Unit :=
  match initFile with
  | none => return ()
  | some path => do
    if ← Run.update fun s => s.fileExists path then
      match ← Run.update fun s => s.readFile path with
      | .error f => Run.fault (.startup path (.io "read" f.message))
      | .ok content =>
        match ← Run.observe (Run.evaluate self e.global content.toList) with
        | .error f => Run.fault (.startup path f)
        | .ok _ => return ()

theorem Engine.startBy_run (a : Allowance) (e : Engine) (initFile : Option String) :
    e.startBy a.run initFile = e.start a initFile := by
  cases initFile <;> rfl

namespace Operation

/-- Carries out an operation. -/
def run (a : Allowance) : Operation α → Run α
  | .create config => Engine.create a config
  | .environment caseRule maxDepth => Run.update fun s => s.addRealm caseRule maxDepth
  | .evaluate e content => e.evaluate a content
  | .evaluateLines e lines => e.evaluateLines a lines
  | .readForm e content => e.readForm a content
  | .setVariable e name v => e.setVariable name v
  | .setHostVariable e name x => e.setHostVariable name x
  | .getVariable e name => e.getVariable name
  | .makeConstant e name => e.makeConstant name
  | .isConstant e name => e.isConstant name
  | .defineExpander e name v => e.defineExpander name v
  | .register e name arity f => e.register name arity f
  | .subscribe e react => e.subscribe react
  | .expand form env => a.run (.expand form env)
  | .program p => Run.program a.run p
  | .drop e => Run.change fun s => s.clear e.global

/-- An operation names frames of the store only.  A function that is registered may also name the
frame that it is called in, and what has been made until then. -/
def Admissible (s : Store) : Operation α → Prop
  | .create _ | .environment .. => True
  | .evaluate e _ | .evaluateLines e _ | .readForm e _ | .setVariable e _ _
  | .setHostVariable e _ _ | .getVariable e _ | .makeConstant e _ | .isConstant e _
  | .defineExpander e _ _ | .drop e => e.global < s.frames.size
  | .register e _ _ f => e.global < s.frames.size ∧ ∀ n, s.frames.size ≤ n →
      ∀ calls args env, env < n → (f calls args env).Within n
  | .subscribe _ react => ∀ content, (react content).Within s.frames.size
  | .expand _ env => env < s.frames.size
  | .program p => p.Within s.frames.size

/-- An operation does not drop an engine of a live realm. -/
def Spares (live : Nat → Prop) (s : Store) : Operation α → Prop
  | .drop e => ¬ live (s.realmOf e.global)
  | _ => True

end Operation

/-- The stores that come about from one by operations of a host, whatever the outcomes of these,
if no engine of a live realm is dropped. -/
inductive Store.History (live : Nat → Prop) (s : Store) : Store → Prop
  | start : History live s s
  | step {t : Store} {α : Type} (h : History live s t) (a : Allowance) (x : Operation α) :
      x.Admissible t → x.Spares live t → History live s (x.run a t).2

/-- The stores that come about from the empty one. -/
def Store.Reachable (files : FileTree) (s : Store) : Prop :=
  (Store.empty files).History (fun _ => False) s

/-! ### Operations retain constants -/

section Operations

variable {live : Nat → Prop} {s₀ s t : Store}

/-- What can be said of a store without regard to where it has come from. -/
theorem Invariant.Holds.rebase (h : (constancy live s₀).Holds s) (live' : Nat → Prop) :
    (constancy live' s).Holds s :=
  ⟨Store.Retains.refl live' h.heap.sound, h.hosting⟩

namespace Invariant.Keeps

variable {I : Invariant}

theorem forM {f : α → Run Unit} (xs : List α)
    (h : ∀ t, s.Larger t → ∀ x ∈ xs, I.Keeps t (f x) fun _ _ => True) :
    I.Keeps s (xs.forM f) fun _ _ => True := by
  induction xs generalizing s with
  | nil => exact Keeps.pure fun _ => trivial
  | cons x xs ih =>
    refine (h s (.refl s) x List.mem_cons_self).bind fun t _ ht _ => ?_
    exact ih fun u hu y hy => h u (ht.trans hu) y (List.mem_cons_of_mem _ hy)

theorem bindGlobally {env : FrameId} (henv : I.frame s env) (name : String) {v : Value}
    (hv : I.InUse s v) : I.Keeps s (Run.bindGlobally env name v) fun _ _ => True := by
  refine (global henv).bind fun t g ht hg => ?_
  refine (intern g name).bind fun u symbol hu _ => ?_
  exact define (I.frame_mono hg hu) symbol (inUse_mono hv (ht.trans hu))

theorem bindNative {env : FrameId} (henv : I.frame s env) (name : String) (arity : Arity)
    (p : Primitive) : I.Keeps s (Run.bindNative env name arity p) fun _ _ => True := by
  refine (Keeps.ofFresh (P := fun _ => True) (Q := fun _ _ => True) (fun _ _ _ _ => trivial)
    fun _ _ _ _ => trivial).bind fun t id ht _ => ?_
  exact bindGlobally (I.frame_mono henv ht) name (Value.over_native _)

theorem bindGroup {env : FrameId} (henv : I.frame s env) (channel : Nat)
    (group : PrimitiveGroup) : I.Keeps s (Run.bindGroup env channel group) fun _ _ => True := by
  have hentries : ∀ t, s.Larger t → ∀ entries : List (String × Arity × Primitive),
      I.Keeps t (entries.forM fun x => Run.bindNative env x.1 x.2.1 x.2.2)
        fun _ _ => True := fun t ht entries =>
    forM entries fun u hu x _ => bindNative (I.frame_mono henv (ht.trans hu)) x.1 x.2.1 x.2.2
  cases group with
  | system =>
    refine (aside (Q := fun _ _ => True) (.of_eq rfl rfl rfl) rfl rfl trivial).bind
      fun t ports ht _ => ?_
    exact (intern env markerName).bind fun u marker hu _ => hentries u (ht.trans hu) _
  | _ => exact hentries s (.refl s) _

/-- The initial program is evaluated like any other. -/
theorem startBy {self : Recur} (hself : RecurKeeps I self) {e : Engine} (he : I.frame s e.global)
    (initFile : Option String) : I.Keeps s (e.startBy self initFile) fun _ _ => True := by
  cases initFile with
  | none => exact Keeps.pure fun _ => trivial
  | some path =>
    refine (aside (Q := fun _ _ => True) (.of_eq rfl rfl rfl) rfl rfl trivial).bind
      fun t found ht _ => ?_
    -- without a file there is nothing to do
    cases found with
    | false => exact Keeps.pure fun _ => trivial
    | true =>
      refine (aside (Q := fun _ _ => True) (.of_eq rfl rfl rfl) rfl rfl trivial).bind
        fun u x hu _ => ?_
      -- a file that cannot be read, or a program that fails, ends the start
      cases x with
      | error f => exact Keeps.throw _
      | ok content =>
        have hevaluate := evaluate hself (I.frame_mono he (ht.trans hu)) content.toList
        refine hevaluate.observe.bind fun w r _ _ => ?_
        cases r with
        | error f => exact Keeps.throw _
        | ok v => exact Keeps.pure fun _ => trivial

theorem start (a : Allowance) {e : Engine} (he : I.frame s e.global) (initFile : Option String) :
    I.Keeps s (e.start a initFile) fun _ _ => True := by
  rw [← e.startBy_run]
  exact startBy (run_keeps a.rounds a.calls) he initFile

end Invariant.Keeps

namespace Operation

/-- An operation on a store that leaves the functions and the subscribers of the host alone. -/
theorem keeps_update {f : Store → α × Store} {Q : Store → α → Prop}
    (hheap : s₀.Retains live s → s₀.Retains live (f s).2) (hlarger : s.Larger (f s).2)
    (hhosts : (f s).2.hosts = s.hosts) (hchannels : (f s).2.channels = s.channels)
    (h : Q (f s).2 (f s).1) : (constancy live s₀).Keeps s (Run.update f) Q :=
  Keeps.update fun hs => ⟨hs.of_heap (hheap hs.heap) hlarger hhosts hchannels, hlarger, h⟩

theorem keeps_makeConstant (env : FrameId) (symbol : Symbol) :
    (constancy live s₀).Keeps s (Run.change fun s => s.makeConstant env symbol)
      fun _ _ => True :=
  Keeps.change fun hs =>
    ⟨hs.of_heap (hs.heap.makeConstant env symbol) ⟨Nat.le_refl _, Nat.le_refl _⟩ rfl rfl,
      ⟨Nat.le_refl _, Nat.le_refl _⟩, trivial⟩

theorem keeps_bindConstant {g : FrameId} (hg : g < s.frames.size) (k : Keyword) {v : Value}
    (hv : (constancy live s₀).InUse s v) :
    (constancy live s₀).Keeps s (Engine.bindConstant g k v) fun _ _ => True := by
  refine (Keeps.intern g k.spelling).bind fun t symbol ht _ => ?_
  refine (Keeps.define ((constancy live s₀).frame_mono hg ht) symbol (inUse_mono hv ht)).bind
    fun u _ _ _ => ?_
  exact keeps_makeConstant g symbol

theorem keeps_addRealm (caseRule : CaseRule) (maxDepth : Nat) :
    (constancy live s₀).Keeps s (Run.update fun s => s.addRealm caseRule maxDepth)
      fun t g => g < t.frames.size :=
  have hsize : (s.addRealm caseRule maxDepth).2.frames.size = s.frames.size + 1 :=
    Array.size_push ..
  keeps_update (fun h => h.addRealm caseRule maxDepth)
    ⟨hsize ▸ Nat.le_succ _, Nat.le_refl _⟩ rfl rfl (hsize ▸ Nat.lt_succ_self _)

theorem keeps_addChannel :
    (constancy live s₀).Keeps s (Run.update fun s => s.addChannel) fun _ _ => True :=
  Keeps.update fun hs =>
    have hsame : s.SameHeap s.addChannel.2 := .of_eq rfl rfl rfl
    ⟨hs.of_hosting hsame hs.hosting.addChannel, hsame.larger, trivial⟩

theorem keeps_groups {g : FrameId} (hg : g < s.frames.size) (channel : Nat) :
    (constancy live s₀).Keeps s
      (PrimitiveGroup.all.forM fun group => Run.bindGroup g channel group) fun _ _ => True :=
  Keeps.forM _ fun _ ht group _ =>
    Keeps.bindGroup ((constancy live s₀).frame_mono hg ht) channel group

theorem keeps_bare (config : Config) :
    (constancy live s₀).Keeps s (Engine.bare config) fun t e => e.global < t.frames.size := by
  refine (keeps_addRealm config.caseRule config.maxDepth).bind fun t g _ hg => ?_
  refine keeps_addChannel.bind fun u channel hu _ => ?_
  have hg := Nat.lt_of_lt_of_le hg hu.frames
  refine (keeps_bindConstant hg .nil Value.over_nil).bind fun w _ hw _ => ?_
  have hg := Nat.lt_of_lt_of_le hg hw.frames
  refine (keeps_bindConstant hg .t Value.over_t).bind fun x _ hx _ => ?_
  have hg := Nat.lt_of_lt_of_le hg hx.frames
  refine (keeps_groups hg channel).bind fun y _ hy _ => ?_
  exact Keeps.pure fun _ => Nat.lt_of_lt_of_le hg hy.frames

/-- Every operation retains the constants of the store, however it ends. -/
theorem keeps (a : Allowance) (x : Operation α) (hx : x.Admissible s) (hlive : x.Spares live s) :
    (constancy live s₀).Keeps s (x.run a) fun _ _ => True := by
  have hself : RecurKeeps (constancy live s₀) a.run := run_keeps a.rounds a.calls
  have hvalue : ∀ {i : Nat} (v : Value), i < s.frames.size → (constancy live s₀).InUse s v :=
    fun _ hi _ _ => Nat.zero_lt_of_lt hi
  have hany : ∀ {β : Type} {t : Store} {m : Run β} {Q : Store → β → Prop},
      (constancy live s₀).Keeps t m Q → (constancy live s₀).Keeps t m fun _ _ => True :=
    fun h => h.mono fun _ _ _ _ _ => trivial
  -- what an operation does is looked at once; that it has a result of some kind is enough
  cases x with
  | create config =>
    refine (keeps_bare config).bind fun t e _ he => ?_
    exact (Keeps.start a he config.initFile).bind fun _ _ _ _ => Keeps.pure fun _ => trivial
  -- operations that only call the interpreter keep what it keeps
  | environment caseRule maxDepth => exact hany (keeps_addRealm caseRule maxDepth)
  | evaluate e content => exact hany (Keeps.evaluate hself hx _)
  | evaluateLines e lines => exact hany (Keeps.evaluate hself hx _)
  | readForm e content =>
    refine (Keeps.nextForm hself hx .code _).bind fun t p _ _ => ?_
    exact Keeps.ofExcept fun _ _ _ => trivial
  -- those that bind a name keep the constants, as binding one is refused
  | setVariable e name v => exact Keeps.bindGlobally hx name (hvalue v hx)
  | setHostVariable e name y =>
    refine (Keeps.ofFresh (P := fun _ => True) (Q := fun _ _ => True) (fun _ _ _ _ => trivial)
      fun _ _ _ _ => trivial).bind fun t v ht _ => ?_
    exact Keeps.bindGlobally ((constancy live s₀).frame_mono hx ht) name
      (inUse_mono (hvalue v hx) ht)
  | getVariable e name =>
    refine (Keeps.intern e.global name).bind fun t symbol ht _ => ?_
    exact hany (Keeps.get ((constancy live s₀).frame_mono hx ht) symbol)
  | makeConstant e name =>
    exact (Keeps.intern e.global name).bind fun _ symbol _ _ => keeps_makeConstant e.global symbol
  | isConstant e name =>
    exact (Keeps.intern e.global name).bind fun _ _ _ _ => Keeps.read fun _ => trivial
  | defineExpander e name v =>
    -- macros are no bindings of values
    have hchange : ∀ t symbol c, (constancy live s₀).Keeps t
        (Run.change fun s => s.bindExpander e.global symbol c) fun _ _ => True :=
      fun t symbol c => Keeps.change fun ht =>
        have hlarger : t.Larger (t.bindExpander e.global symbol c) :=
          ⟨Nat.le_of_eq (Store.size_bindExpander ..).symm, Nat.le_refl _⟩
        ⟨ht.of_heap (ht.heap.bindExpander e.global symbol c) hlarger rfl rfl, hlarger, trivial⟩
    match v with
    | .function (.closure c) =>
      exact (Keeps.intern e.global name).bind fun t symbol _ _ => hchange t symbol c.index
    | .nil | .t | .number _ | .text .. | .symbol _ | .cons .. | .function (.native _) =>
      exact Keeps.throw _
  | register e name arity f =>
    -- the function of a host stays within the frames that there are when it is called
    obtain ⟨he, hf⟩ := hx
    refine (Keeps.update (Q := fun _ _ => True) fun hs => ?_).bind fun t index ht _ =>
      Keeps.bindNative ((constancy live s₀).frame_mono he ht) name arity (.host index)
    have hsame : s.SameHeap (s.addHost f).2 := .of_eq rfl rfl rfl
    refine ⟨hs.of_hosting hsame (hs.hosting.addHost ?_), hsame.larger, trivial⟩
    exact fun u hu calls args env henv => ⟨henv, hf u.frames.size hu.frames calls args env henv⟩
  | subscribe e react => exact Keeps.subscribe e.channel hx
  | expand form env =>
    exact hany (hself (.expand form env) s ⟨hvalue form hx, hx⟩)
  | program p => exact Keeps.program hself hx
  | drop e =>
    -- only a frame that is not live is emptied
    refine Keeps.change fun hs => ?_
    have hlarger : s.Larger (s.clear e.global) :=
      ⟨Nat.le_of_eq Array.size_modify.symm, Nat.le_refl _⟩
    exact ⟨hs.of_heap (hs.heap.clear hlive) hlarger rfl rfl, hlarger, trivial⟩

end Operation

/-- A history retains the constants of any store that it comes from. -/
theorem Store.History.holds (h : s.History live t) (hs : (constancy live s₀).Holds s) :
    (constancy live s₀).Holds t := by
  induction h with
  | start => exact hs
  | step _ a x hx hlive ih => exact (x.keeps a hx hlive ih).holds

/-- In every store that is reached, the heap is sound, and functions and subscribers of the host
name what there is. -/
theorem Store.Reachable.holds {files : FileTree} (h : Store.Reachable files s)
    (live : Nat → Prop) : (constancy live s).Holds s := by
  have hempty : (constancy (fun _ => False) (Store.empty files)).Holds (Store.empty files) := by
    have hsound : (Store.empty files).Sound :=
      ⟨fun hi => absurd hi (Nat.not_lt_zero _), nofun, nofun,
        fun hc => absurd hc (Nat.not_lt_zero _)⟩
    exact ⟨Store.Retains.refl _ hsound, nofun, nofun⟩
  exact (Store.History.holds h hempty).rebase live

end Operations

/-! ### The names of the empty list and of truth -/

namespace Store

/-- A frame is the only one of its realm. -/
structure Founded (s : Store) (g : Nat) : Prop where
  lt : g < s.frames.size
  outer : (s.frame g).outer = none
  sole : ∀ {i : Nat}, i < s.frames.size → s.realmOf i = s.realmOf g → i = g

/-- The only frame of a realm binds a keyword, which is a constant. -/
structure Anchors (s : Store) (g : Nat) (k : Keyword) (v : Value) : Prop where
  founded : s.Founded g
  symbol : ∃ symbol, (s.symbolsAt (s.realmOf g)).lookup? k.spelling = some symbol ∧
    symbol ∈ s.constantsAt (s.realmOf g) ∧ s.bound? symbol g = some v

variable {live : Nat → Prop} {s t : Store} {g : Nat} {k : Keyword} {v : Value}

theorem Founded.of_sameShape (h : s.Founded g) (ht : s.SameShape t) : t.Founded g where
  lt := ht.size.symm ▸ h.lt
  outer := (ht.outer g).trans h.outer
  sole hi hrealm := by
    rw [ht.size] at hi
    rw [ht.realmOf, ht.realmOf] at hrealm
    exact h.sole hi hrealm

theorem founded_addRealm (hs : s.Sound) (caseRule : CaseRule) (maxDepth : Nat) :
    (s.addRealm caseRule maxDepth).2.Founded s.frames.size where
  lt := by
    have hsize : (s.addRealm caseRule maxDepth).2.frames.size = s.frames.size + 1 :=
      Array.size_push ..
    omega
  outer := by rw [frame_addRealm, if_pos rfl]
  sole {i} hi hrealm := by
    have hsize : (s.addRealm caseRule maxDepth).2.frames.size = s.frames.size + 1 :=
      Array.size_push ..
    rw [realmOf_addRealm, realmOf_addRealm, if_pos rfl] at hrealm
    split at hrealm
    · assumption
    · have hold := hs.inRealm (i := i) (by omega)
      omega

/-- A frame of the realm sees the frame that founds it, and nothing else that binds a constant. -/
theorem Anchors.valueOf (h : s.Anchors g k v) (hs : s.Sound) (ht : s.Retains live t)
    (hlive : live (s.realmOf g)) {env : Nat} (henv : env < t.frames.size)
    (hrealm : t.realmOf env = t.realmOf g) :
    t.valueOf env (t.intern g k.spelling).1 = .ok v := by
  obtain ⟨hfounded, symbol, hname, hconstant, hbound⟩ := h
  have hg : t.realmOf g = s.realmOf g := ht.realmOf hfounded.lt
  have hin : s.realmOf g < s.realms.size := hs.inRealm hfounded.lt
  have hsymbol : (t.intern g k.spelling).1 = symbol := by
    refine intern_of_lookup? ?_
    have hnames := (ht.names hin).lookup? hname
    rw [← hg] at hnames
    exact hnames
  have hchain : ∀ i ∈ t.chain env, t.realmOf i = s.realmOf g :=
    fun i hi => (ht.sound.realm_chain i hi).trans (hrealm.trans hg)
  -- a frame of the realm that was there before is the one that founds it
  have hsole : ∀ i ∈ t.chain env, i < s.frames.size → i = g := fun i hi hlt =>
    hfounded.sole hlt ((ht.realmOf hlt).symm.trans (hchain i hi))
  have hvalue : ∀ i ∈ t.chain env, t.bound? symbol i = s.bound? symbol i := fun i hi =>
    ht.bound (hchain i hi ▸ hlive) (hchain i hi ▸ hconstant)
  -- the outermost frame of the chain is that frame
  have hmem : g ∈ t.chain env := by
    obtain ⟨o, ho, houter⟩ := ht.sound.exists_outermost henv
    have hlt : o < s.frames.size := by
      refine Nat.lt_of_not_le fun hle => ?_
      exact ht.added hle (ht.sound.inRange_chain henv o ho) (hchain o ho ▸ hin) houter
    exact hsole o ho hlt ▸ ho
  -- so the symbol is found where it was bound, and nowhere before that
  have hlookup : t.lookup? env symbol = some v := by
    rcases hfound : t.lookup? env symbol with - | w
    · have hnone := List.findSome?_eq_none_iff.mp hfound g hmem
      rw [hvalue g hmem, hbound] at hnone
      cases hnone
    · obtain ⟨i, hi, hw⟩ := List.exists_of_findSome?_eq_some hfound
      rw [hvalue i hi] at hw
      by_cases hlt : i < s.frames.size
      · rw [hsole i hi hlt, hbound] at hw
        exact hw.symm
      · rw [bound?_of_le (Nat.le_of_not_lt hlt)] at hw
        cases hw
  rw [Store.valueOf, hsymbol, hlookup]

end Store

namespace Engine

variable {live : Nat → Prop} {s t u : Store} {e : Engine} {g : Nat} {k : Keyword} {v : Value}

theorem bindConstant_eq_ok (h : bindConstant g k v s = (.ok (), t)) :
    t = ((s.intern g k.spelling).2.bindAt g (s.intern g k.spelling).1 v).makeConstant g
      (s.intern g k.spelling).1 := by
  rw [bindConstant, Run.bind_apply, Run.intern, Run.update_apply] at h
  dsimp only at h
  obtain ⟨_, u, hdefine, hmake⟩ := Run.bind_eq_ok h
  rw [Run.define_apply] at hdefine
  split at hdefine
  · cases hdefine
  · obtain ⟨-, rfl⟩ := Prod.mk.inj hdefine
    exact (Prod.mk.inj hmake).2.symm

/-- A keyword is bound in a founding frame. -/
theorem anchors_bindConstant (hg : s.Founded g) (hs : s.Sound)
    (h : bindConstant g k v s = (.ok (), t)) : t.Anchors g k v := by
  obtain rfl := bindConstant_eq_ok h
  have hnamed := (Store.SameHeap.intern s g k.spelling).sameShape
  have hsymbols := Store.symbols_intern s g k.spelling
  rw [if_pos (hs.inRealm hg.lt)] at hsymbols
  have hname := SymbolTable.lookup?_intern (s.symbols g) k.spelling
  rw [← hsymbols] at hname
  -- interned, bound and made a constant: three steps of the same shape
  generalize hsymbol : (s.intern g k.spelling).1 = symbol at *
  generalize (s.intern g k.spelling).2 = u at *
  have hbound := Store.sameShape_bindAt u g symbol v
  have hmade := Store.sameShape_makeConstant (u.bindAt g symbol v) g symbol
  have hfounded := (hg.of_sameShape hnamed).of_sameShape hbound
  refine ⟨hfounded.of_sameShape hmade, symbol, ?_, ?_, ?_⟩
  · rw [Store.symbolsAt_makeConstant, hmade.realmOf, hbound.realmOf, ← hsymbol]
    exact hname
  · have hin := ((hs.of_sameShape hnamed).of_sameShape hbound).inRealm hfounded.lt
    rw [Store.constantsAt_makeConstant, hmade.realmOf]
    -- the symbol is a constant already, or becomes one
    by_cases hmem : symbol ∈ (u.bindAt g symbol v).constantsAt ((u.bindAt g symbol v).realmOf g)
    · rw [if_neg fun hnew => hnew.2.2 hmem]
      exact hmem
    · rw [if_pos ⟨rfl, hin, hmem⟩]
      exact List.mem_cons_self
  · exact Store.bound?_bindAt_self (hg.of_sameShape hnamed).lt

/-- The keywords that are bound when an engine is made, and their values. -/
def keywords : List (Keyword × Value) := [(.nil, .nil), (.t, .t)]

/-- What an engine has run since its keywords were bound has retained them. -/
theorem anchors_of_create {live₀ : Nat → Prop} {s₀ s₁ : Store} {a : Allowance} {config : Config}
    (hs : (constancy live₀ s₀).Holds s₁) (h : create a config s₁ = (.ok e, s))
    (live : Nat → Prop) (hk : (k, v) ∈ keywords) :
    ∃ u : Store, u.Sound ∧ u.Anchors e.global k v ∧ (constancy live u).Holds s := by
  -- a new engine: its realm, its channel, the two keywords, the primitives
  obtain ⟨e', t, hbare, h⟩ := Run.bind_eq_ok h
  obtain ⟨_, t', hstart, hpure⟩ := Run.bind_eq_ok h
  cases hpure
  obtain ⟨g, u₁, hrealm, hbare⟩ := Run.bind_eq_ok hbare
  obtain ⟨channel, u₂, hchannel, hbare⟩ := Run.bind_eq_ok hbare
  obtain ⟨_, u₃, hnil, hbare⟩ := Run.bind_eq_ok hbare
  obtain ⟨_, u₄, htrue, hbare⟩ := Run.bind_eq_ok hbare
  obtain ⟨_, u₅, hgroups, hpure⟩ := Run.bind_eq_ok hbare
  cases hpure
  -- the new global frame is the only one of its realm
  have hfounded : u₂.Founded g := by
    obtain ⟨hg, rfl⟩ := Prod.mk.inj hrealm
    obtain ⟨-, rfl⟩ := Prod.mk.inj hchannel
    obtain rfl := Except.ok.inj hg
    have hnew := Store.founded_addRealm hs.heap.sound config.caseRule config.maxDepth
    exact hnew.of_sameShape ⟨rfl, rfl, fun _ => rfl, fun _ => rfl, rfl⟩
  obtain ⟨h₁, -, hg⟩ := (Operation.keeps_addRealm config.caseRule config.maxDepth).ok hs hrealm
  obtain ⟨h₂, hlarger, -⟩ := Operation.keeps_addChannel.ok h₁ hchannel
  have hg := Nat.lt_of_lt_of_le hg hlarger.frames
  have hanchors := anchors_bindConstant hfounded h₂.heap.sound hnil
  obtain ⟨h₃, hlarger, -⟩ := (Operation.keeps_bindConstant hg .nil Value.over_nil).ok h₂ hnil
  have hg := Nat.lt_of_lt_of_le hg hlarger.frames
  obtain ⟨h₄, hlarger, -⟩ := (Operation.keeps_bindConstant hg .t Value.over_t).ok h₃ htrue
  have hg' := Nat.lt_of_lt_of_le hg hlarger.frames
  have hrest : ∀ {u : Store}, (constancy live u).Holds u₄ → (constancy live u).Holds s := by
    intro u hu
    obtain ⟨h₅, hlarger, -⟩ := (Operation.keeps_groups hg' channel).ok hu hgroups
    have he := Nat.lt_of_lt_of_le hg' hlarger.frames
    exact ((Keeps.start a (e := ⟨g, channel⟩) he config.initFile).ok h₅ hstart).1
  -- the first keyword is anchored when the second is bound, and both when primitives are
  rcases List.mem_cons.mp hk with heq | hk
  · cases heq
    refine ⟨u₃, h₃.heap.sound, hanchors, hrest ?_⟩
    exact ((Operation.keeps_bindConstant hg .t Value.over_t).ok (h₃.rebase live) htrue).1
  · cases List.mem_singleton.mp hk
    refine ⟨u₄, h₄.heap.sound, ?_, hrest (h₄.rebase live)⟩
    exact anchors_bindConstant hanchors.founded h₃.heap.sound htrue

end Engine

/-! ### The main result -/

/-- Evaluating a symbol is looking it up. -/
theorem Allowance.run_symbol (a : Allowance) (h : 0 < a.calls) {symbol : Symbol} {env : FrameId}
    {t : Store} {v : Value} (hv : t.valueOf env symbol = .ok v) :
    a.run (.eval (.symbol symbol) env) t = (.ok v, t) := by
  obtain ⟨calls, hcalls⟩ := Nat.exists_eq_add_one.mpr h
  have hget : Run.get env symbol t = (.ok v, t) := by
    rw [Run.get, Run.bind_apply, Run.read_apply, hv]
    rfl
  rw [Allowance.run, hcalls]
  exact hget

/-- Whatever a host does with its engines, other than dropping this one: what is a constant of the
engine stays one, no frame of the engine binds it other than before, and no frame that has been
added binds it.  In an engine that has been made, the names of the empty list and of truth evaluate
to these in every frame. -/
theorem constants_kept {files : FileTree} {s t : Store} {e : Engine}
    (hs : Store.Reachable files s) (he : e.global < s.frames.size)
    (ht : s.History (· = s.realmOf e.global) t) :
    (∀ symbol, s.isConstant e.global symbol = true →
      t.isConstant e.global symbol = true ∧
      (∀ i < s.frames.size, s.realmOf i = s.realmOf e.global →
        t.bound? symbol i = s.bound? symbol i) ∧
      ∀ i, s.frames.size ≤ i → t.realmOf i = t.realmOf e.global → t.bound? symbol i = none) ∧
    ∀ (a : Allowance) (config : Config) (s₀ : Store), Store.Reachable files s₀ →
      Engine.create a config s₀ = (.ok e, s) →
      ∀ (k : Keyword) (v : Value), (k, v) ∈ Engine.keywords →
      ∀ env < t.frames.size, t.realmOf env = t.realmOf e.global →
      ∀ a' : Allowance, 0 < a'.calls →
        a'.run (.eval (.symbol (t.intern e.global k.spelling).1) env) t = (.ok v, t) := by
  have hheld := (Store.History.holds ht (hs.holds _)).heap
  have hrealm := hheld.realmOf he
  refine ⟨fun symbol hsymbol => ⟨?_, fun i hi hin => ?_, fun i hle hin => ?_⟩, ?_⟩
  · -- a constant stays one
    rw [← Store.mem_constantsAt, hrealm]
    exact hheld.constants (Store.mem_constantsAt.mpr hsymbol)
  · -- frames that were there keep its value
    have hi' : t.realmOf i = s.realmOf e.global := (hheld.realmOf hi).trans hin
    exact hheld.bound hi' (hi' ▸ Store.mem_constantsAt.mpr hsymbol)
  · -- frames that are new do not bind it
    have hi' : t.realmOf i = s.realmOf e.global := hin.trans hrealm
    rw [hheld.bound hi' (hi' ▸ Store.mem_constantsAt.mpr hsymbol), Store.bound?_of_le hle]
  · -- the keywords are anchored when the engine has been made
    intro a config s₀ hs₀ hcreate k v hk env henv hin a' ha'
    obtain ⟨u, hu, hanchors, hbase⟩ :=
      Engine.anchors_of_create (hs₀.holds fun _ => False) hcreate (· = s.realmOf e.global) hk
    have hend := (Store.History.holds ht hbase).heap
    refine a'.run_symbol ha' (hanchors.valueOf hu hend ?_ henv hin)
    exact (hbase.heap.realmOf hanchors.founded.lt).symm

/-- A constant that its host has made is neither defined nor assigned by a program, also where the
program binds other names; and in a new engine the name of truth stands for it. -/
theorem constants_kept_of_makeConstant :
    (let s₀ := ((Operation.environment .preserve 4).run ⟨0, 0⟩ (.empty .empty)).2
      let e : Engine := ⟨0, 0⟩
      let s := ((Operation.makeConstant e "x").run ⟨0, 0⟩ s₀).2
      let x := (s.intern 0 "x").1
      let t := ((Operation.evaluate e "(define y t) (define x y)").run ⟨9, 9⟩ s).2
      s.isConstant 0 x = true ∧ (t.valueOf 0 (t.intern 0 "y").1) = .ok .t ∧
        t.isConstant 0 x = true ∧ t.bound? x 0 = s.bound? x 0) ∧
    ∃ e s, Engine.create ⟨0, 0⟩ ⟨.preserve, none, 4⟩ (.empty .empty) = (.ok e, s) ∧
      (⟨1, 0⟩ : Allowance).run (.eval (.symbol (s.intern e.global "t").1) e.global) s =
        (.ok .t, s) := by
  constructor
  · -- a constant of the user, which a later program tries to define again
    intro s₀ e s x t
    have hsize : e.global < s.frames.size := by decide +kernel
    have hconstant : s.isConstant e.global x = true := by decide +kernel
    have hy : t.valueOf 0 (t.intern 0 "y").1 = .ok .t := by decide +kernel
    have hs₀ : Store.Reachable .empty s₀ :=
      .step .start ⟨0, 0⟩ (.environment .preserve 4) trivial trivial
    have hsize₀ : e.global < s₀.frames.size := by decide +kernel
    have hs : Store.Reachable .empty s := .step hs₀ ⟨0, 0⟩ (.makeConstant e "x") hsize₀ trivial
    have ht : s.History (· = s.realmOf e.global) t :=
      .step .start ⟨9, 9⟩ (.evaluate e "(define y t) (define x y)") hsize trivial
    obtain ⟨hstays, hbound, -⟩ := (constants_kept hs hsize ht).1 x hconstant
    exact ⟨hconstant, hy, hstays, hbound 0 hsize rfl⟩
  · -- a keyword
    let config : Config := ⟨.preserve, none, 4⟩
    obtain ⟨e, s, hcreate, hglobal, hshape, -⟩ :=
      Engine.create_eq_ok ⟨0, 0⟩ .preserve 4 (.empty .empty)
    have hsize : e.global < s.frames.size := by
      rw [hglobal, hshape.size]
      decide
    have hs : Store.Reachable .empty s := by
      have hstep : Store.Reachable .empty
          ((Operation.create config).run ⟨0, 0⟩ (.empty .empty)).2 :=
        .step .start ⟨0, 0⟩ (.create config) trivial trivial
      rwa [Operation.run, hcreate] at hstep
    refine ⟨e, s, hcreate, ?_⟩
    exact (constants_kept hs hsize .start).2 ⟨0, 0⟩ config (.empty .empty) .start hcreate .t .t
      (by decide) e.global hsize rfl ⟨1, 0⟩ Nat.zero_lt_one

end PocketLisp
