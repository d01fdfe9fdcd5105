/-
PocketLisp/Proofs/Apart.lean

Macro calls that are apart from each other.

Reading as code hands an expander what it has read, in which macro calls are
expanded already; expansion from the outside inwards hands it the argument
forms as they stand.  `Value.CallsApart` describes the forms in which that
makes no difference, and `ElementsApart` follows the elements of such a form
while they are read.
-/
import PocketLisp.Proofs.Expansion

namespace PocketLisp

/-! ### Macro calls apart from each other -/

/-- Whether expansion keeps the element at a place of a list behind a head. -/
def keptAt (head : Option Symbol) (place : Nat) : Bool :=
  (keptBehind head).all fun kept => place < kept

/-- Reading takes as data only what expansion keeps, unless it defines a macro. -/
theorem keptAt_of_data {head : Option Symbol} {place : Nat}
    (hdefinition : ∀ symbol, head = some symbol → symbol.is .macroDef = false)
    (h : Mode.behind head place = .data) : keptAt head place = true := by
  rw [keptAt, keptBehind]
  rw [Mode.behind] at h
  split at h
  -- what is quoted is data, and kept as a whole
  case h_1 hk => rw [hk]; rfl
  -- the parameter list of a function is kept
  case h_2 hk =>
    split at h
    case isTrue hplace => rw [hk, hplace]; rfl
    case isFalse => cases h
  -- so are the name and the parameter list of a definition
  case h_3 hk =>
    split at h
    case isTrue hplace => rw [hk, hplace]; rfl
    case isFalse => cases h
  -- those of a macro are data for the reader only
  case h_4 hk =>
    obtain ⟨symbol, rfl, hsymbol⟩ := Option.bind_eq_some_iff.mp hk
    have hnot := hdefinition symbol rfl
    rw [Symbol.is, hsymbol] at hnot
    cases hnot
  case h_5 => cases h

/-- Of a list, as many elements are kept as there are places at which they are. -/
theorem lt_kept_iff {head : Option Symbol} {length place : Nat} (h : place < length) :
    place < (keptBehind head).getD length ↔ keptAt head place = true := by
  rw [keptAt]
  rcases keptBehind head with - | kept
  · exact iff_of_true h rfl
  · simp

/-- Behind `quote`, nothing is read as code. -/
theorem behind_quote {head : Option Symbol} (h : head.bind Symbol.keyword = some (.form .quote))
    (place : Nat) : Mode.behind head place = .data := by
  rw [Mode.behind, h]

/-- Forms in code that define no macro, and in which no macro call stands among the arguments of
another, where expansion keeps the element, or at the head of a list for which it gives a new
symbol.  A macro call is not headed by `quote`.  Without `calls`, there is no macro call at all. -/
inductive Value.CallsApart (macros : Symbol → Option Expander) : (calls : Bool) → Value → Prop
  | intro {calls : Bool} {v : Value}
      (definition : ∀ symbol, v.head? = some symbol → symbol.is .macroDef = false)
      (allowed : v.isCall macros = true →
        calls = true ∧ v.head?.bind Symbol.keyword ≠ some (.form .quote))
      (first : ∀ w, v.cars.head? = some w → w.isCall macros = true →
        ∀ r, Expands macros (p := .form) w.bare (some r) → r.symbol? = none)
      (elements : ∀ place w, v.cars[place]? = some w → Mode.behind v.head? place = .code →
        CallsApart macros (calls && !v.isCall macros && !keptAt v.head? place) w) :
      CallsApart macros calls v

/-- The elements of a list in code that are left to read, behind those that have been read. -/
def ElementsApart (macros : Symbol → Option Expander) (calls : Bool) (items : Array Value)
    (vs : List Value) : Prop :=
  ∀ head, (items.toList ++ vs).head?.bind Value.symbol? = head → ∀ i v, vs[i]? = some v →
    Mode.behind head (items.size + i) = .code →
      v.CallsApart macros (calls && !keptAt head (items.size + i))

namespace Value

variable {macros : Symbol → Option Expander} {calls : Bool} {v : Value}

theorem head?_eq_cars (v : Value) : v.cars.head?.bind symbol? = v.head? := by cases v <;> rfl

namespace CallsApart

theorem atom (h : v.isCons = false) : v.CallsApart macros calls := by
  cases v with
  | cons id a d => cases h
  | _ => exact ⟨by rintro _ ⟨⟩, by rintro ⟨⟩, by rintro _ ⟨⟩, by rintro _ _ ⟨⟩⟩

theorem definition (h : v.CallsApart macros calls) :
    ∀ symbol, v.head? = some symbol → symbol.is .macroDef = false := by
  cases h; assumption

theorem allowed (h : v.CallsApart macros calls) : v.isCall macros = true →
    calls = true ∧ v.head?.bind Symbol.keyword ≠ some (.form .quote) := by
  cases h; assumption

/-- What stands at the head of a list keeps its symbol, or stays without one. -/
theorem first (h : v.CallsApart macros calls) {w r : Value} (hw : v.cars.head? = some w)
    (hr : Expands macros (p := .form) w.bare (some r)) : r.symbol? = w.symbol? := by
  rcases hcall : w.isCall macros with - | -
  · rw [← symbol?_bare w]
    exact hr.symbol?_eq (by rw [isCall_bare, hcall])
  · obtain ⟨_, _, first, _⟩ := h
    rw [first w hw hcall r hr]
    cases w with
    | cons id a d => rfl
    | _ => cases hcall

theorem elements (h : v.CallsApart macros calls) :
    ElementsApart macros (calls && !v.isCall macros) #[] v.cars := by
  cases h with
  | intro _ _ _ elements =>
    intro head hhead i w hw hcode
    have hhead' : v.head? = head := (head?_eq_cars v).symm.trans hhead
    subst hhead'
    have hplace : (#[] : Array Value).size + i = i := Nat.zero_add i
    rw [hplace] at hcode ⊢
    exact elements i w hw hcode

end CallsApart

end Value

namespace ElementsApart

variable {macros : Symbol → Option Expander} {calls : Bool} {items : Array Value}
  {v w : Value} {vs : List Value}

/-- The head of a list is the first element read, if any has been read. -/
theorem inside_eq (hitems : items.toList ≠ []) (vs : List Value) :
    Mode.inside .code items =
      .behind ((items.toList ++ vs).head?.bind Value.symbol?) items.size := by
  obtain ⟨items⟩ := items
  cases items with
  | nil => exact absurd rfl hitems
  | cons a items => rfl

/-- What the next element is, if it is read as code. -/
theorem next (h : ElementsApart macros calls items (v :: vs)) {head : Option Symbol}
    (hhead : (items.toList ++ v :: vs).head?.bind Value.symbol? = head)
    (hcode : Mode.inside .code items = .code) :
    v.CallsApart macros (calls && !keptAt head items.size) := by
  by_cases hitems : items.toList = []
  · -- what has a symbol at its first place has no call there
    rcases hv : v.symbol? with - | symbol
    · obtain ⟨items⟩ := items
      cases hitems
      have hnone : head = none := hhead.symm.trans hv
      exact h head hhead 0 v rfl (by rw [hnone]; rfl)
    · refine .atom ?_
      cases v <;> first | rfl | cases hv
  · rw [inside_eq hitems (v :: vs), hhead] at hcode
    exact h head hhead 0 v rfl hcode

/-- The head of a list is settled once its first element is read. -/
theorem head_push (hw : items.toList = [] → w.symbol? = v.symbol?) :
    ((items.push w).toList ++ vs).head?.bind Value.symbol? =
      (items.toList ++ v :: vs).head?.bind Value.symbol? := by
  rw [Array.toList_push]
  rcases h : items.toList with - | ⟨a, others⟩
  · exact hw h
  · rfl

/-- What is left behind the next element. -/
theorem push (h : ElementsApart macros calls items (v :: vs))
    (hw : items.toList = [] → w.symbol? = v.symbol?) :
    ElementsApart macros calls (items.push w) vs := by
  intro head hhead i x hx
  have hplace : (items.push w).size + i = items.size + (i + 1) := by
    rw [Array.size_push]
    omega
  rw [hplace]
  exact h head ((head_push hw).symm.trans hhead) (i + 1) x hx

end ElementsApart

/-- The elements of a list that is no macro call, while it is read: those left to read, of which as
many as `kept` are kept by expansion, behind those that have been read. -/
structure ElementsAhead (macros : Symbol → Option Expander) (head : Option Symbol)
    (items : Array Value) (kept : Nat) (vs : List Value) : Prop where
  apart : ElementsApart macros true items vs
  /-- the first element decides on the head by what it is written as -/
  first : items.toList = [] → ∀ v r, vs.head? = some v →
    Expands macros (p := .form) v.bare (some r) → r.symbol? = v.symbol?
  head_eq : (items.toList ++ vs).head?.bind Value.symbol? = head
  definition : ∀ symbol, head = some symbol → symbol.is .macroDef = false
  kept_iff : ∀ i, i < vs.length → (i < kept ↔ keptAt head (items.size + i) = true)

namespace ElementsAhead

variable {macros : Symbol → Option Expander} {head : Option Symbol} {items : Array Value}
  {kept : Nat} {v w : Value} {vs : List Value}

/-- The elements of a list of which nothing has been read. -/
theorem start (h : v.CallsApart macros true) (hcall : v.isCall macros = false) :
    ElementsAhead macros v.head? #[] ((keptBehind v.head?).getD v.cars.length) v.cars where
  apart := by
    have helements := h.elements
    rwa [hcall] at helements
  first := fun _ _ _ hv hr => h.first hv hr
  head_eq := v.head?_eq_cars
  definition := h.definition
  kept_iff := by
    intro i hi
    rw [Array.size_empty, Nat.zero_add]
    exact lt_kept_iff hi

theorem keptAt_iff (h : ElementsAhead macros head items kept (v :: vs)) :
    0 < kept ↔ keptAt head items.size = true :=
  h.kept_iff 0 (Nat.succ_pos _)

/-- An element that is kept has no macro call in it. -/
theorem verbatim (h : ElementsAhead macros head items (kept + 1) (v :: vs))
    (hcode : Mode.inside .code items = .code) : v.CallsApart macros false := by
  have hapart := h.apart.next h.head_eq hcode
  rwa [h.keptAt_iff.mp (Nat.succ_pos _)] at hapart

/-- An element that is not kept is read as code, and macro calls are apart in it. -/
theorem code (h : ElementsAhead macros head items 0 (v :: vs)) :
    Mode.inside .code items = .code ∧ v.CallsApart macros true := by
  have hlost : keptAt head items.size = false :=
    Bool.eq_false_iff.mpr fun hkept => absurd (h.keptAt_iff.mpr hkept) (Nat.lt_irrefl 0)
  have hcode : Mode.inside .code items = .code := by
    cases hmode : Mode.inside .code items with
    | code => rfl
    | data =>
      by_cases hempty : items.toList = []
      · -- the first element is never read as data
        obtain ⟨items⟩ := items
        cases hempty
        cases hmode
      · rw [ElementsApart.inside_eq hempty _, h.head_eq] at hmode
        rw [keptAt_of_data h.definition hmode] at hlost
        cases hlost
  have hapart := h.apart.next h.head_eq hcode
  rw [hlost] at hapart
  exact ⟨hcode, hapart⟩

/-- The next element has been read. -/
theorem push {kept' : Nat} (h : ElementsAhead macros head items kept (v :: vs))
    (hw : items.toList = [] → w.symbol? = v.symbol?)
    (hkept : ∀ i, i < kept' ↔ i + 1 < kept) :
    ElementsAhead macros head (items.push w) kept' vs where
  apart := h.apart.push hw
  first := by
    intro hempty
    rw [Array.toList_push] at hempty
    cases List.append_ne_nil_of_right_ne_nil _ (List.cons_ne_nil w []) hempty
  head_eq := (ElementsApart.head_push hw).trans h.head_eq
  definition := h.definition
  kept_iff := by
    intro i hi
    rw [hkept i, h.kept_iff (i + 1) (Nat.succ_lt_succ hi), Array.size_push, Nat.add_assoc,
      Nat.add_comm 1 i]

/-- The next element has been read verbatim. -/
theorem keep (h : ElementsAhead macros head items (kept + 1) (v :: vs)) (hw : w.bare = v.bare) :
    ElementsAhead macros head (items.push w) kept vs := by
  refine h.push (fun _ => ?_) fun i => Nat.succ_lt_succ_iff.symm
  rw [← Value.symbol?_bare, hw, Value.symbol?_bare]

/-- The next element has been read and expanded. -/
theorem expand (h : ElementsAhead macros head items 0 (v :: vs))
    (hw : Expands macros (p := .form) v.bare (some w.bare)) :
    ElementsAhead macros head (items.push w) 0 vs := by
  refine h.push (fun hempty => ?_) fun i => iff_of_false (Nat.not_lt_zero i) (Nat.not_lt_zero _)
  rw [← Value.symbol?_bare]
  exact h.first hempty v w.bare rfl hw

end ElementsAhead

/-- In a quoted form there is no macro call. -/
theorem Value.CallsApart.of_quote {macros : Symbol → Option Expander} {v : Value}
    (h : v.CallsApart macros true)
    (hquote : v.head?.bind Symbol.keyword = some (.form .quote)) : v.CallsApart macros false := by
  refine ⟨h.definition, fun hcall => absurd hquote (h.allowed hcall).2, ?_, ?_⟩
  · obtain ⟨_, _, first, _⟩ := h
    exact first
  · intro place w _ hcode
    cases (behind_quote hquote place).symm.trans hcode

end PocketLisp
