/-
PocketLisp/Proofs/Generation.lean

Generating a symbol comes to an end, with a new symbol.

A symbol is generated in rounds: each takes the higher one of the counter and
the size of the table as a number, sets the counter behind it, and ends the
search if the name of that number has not been interned.  `Generates` describes
these rounds without a bound for their number.  The rounds find the first free
number (`generates_iff`), which there is, and which the bounded search finds as
well (`generates_unique`).

Main result: `generation_is_fresh`.
-/
import PocketLisp.Proofs.Identity

namespace PocketLisp

namespace SymbolTable

variable {t u : SymbolTable} {n k rounds : Nat} {symbol : Symbol} {r : Symbol × SymbolTable}

/-! ### Rounds -/

/-- A table generates a symbol in so many rounds. -/
inductive Generates : SymbolTable → Nat → Symbol × SymbolTable → Prop
  | found {t : SymbolTable} (free : t.lookup? (generatedName t.nextNumber) = none) :
    Generates t 1 ((t.countedPast t.nextNumber).intern (generatedName t.nextNumber))
  | again {t : SymbolTable} {symbol rounds r}
    (taken : t.lookup? (generatedName t.nextNumber) = some symbol)
    (rest : Generates (t.countedPast t.nextNumber) rounds r) : Generates t (rounds + 1) r

theorem mem_of_lookup?_generatedName (h : t.lookup? (generatedName n) = some symbol) :
    generatedName n ∈ t.names := by
  by_contra hfree
  rw [lookup?_generatedName_eq_none.mpr hfree] at h
  cases h

/-- The counter is set behind a number that is not below the size. -/
theorem nextNumber_countedPast (h : t.nextNumber ≤ n) : (t.countedPast n).nextNumber = n + 1 := by
  have hsize : t.size ≤ n := (le_max_right _ _).trans h
  exact max_eq_left (hsize.trans n.le_succ)

/-- A round that fails does not change which number is the first free one. -/
theorem FirstFree.countedPast_iff (htaken : generatedName t.nextNumber ∈ t.names) :
    (t.countedPast t.nextNumber).FirstFree n ↔ t.FirstFree n := by
  have hnext := t.nextNumber_countedPast le_rfl
  constructor
  · -- the number that is passed over is taken
    intro h
    have hlow := h.low
    rw [hnext] at hlow
    refine ⟨by omega, fun m hm hlt => ?_, h.free⟩
    rcases hm.eq_or_lt with rfl | hm
    · exact htaken
    · exact h.taken m (hnext.trans_le hm) hlt
  · intro h
    have hne : t.nextNumber ≠ n := by
      rintro rfl
      exact h.free htaken
    have hlow := h.low
    refine ⟨by rw [hnext]; omega, fun m hm hlt => ?_, h.free⟩
    rw [hnext] at hm
    exact h.taken m (by omega) hlt

/-- The rounds end with the first free number, and there is one for each number up to that. -/
theorem generates_iff : t.Generates rounds r ↔
    ∃ n, t.FirstFree n ∧ t.nextNumber + rounds = n + 1 ∧
      r = (t.countedPast n).intern (generatedName n) := by
  constructor
  · intro h
    induction h with
    | found free =>
      refine ⟨_, ⟨le_rfl, fun m hm hlt => ?_, lookup?_generatedName_eq_none.mp free⟩, rfl, rfl⟩
      exact absurd hlt (Nat.not_lt.mpr hm)
    | @again t _ _ _ taken rest ih =>
      obtain ⟨n, hfirst, hrounds, rfl⟩ := ih
      rw [nextNumber_countedPast le_rfl] at hrounds
      exact ⟨n, (FirstFree.countedPast_iff (mem_of_lookup?_generatedName taken)).mp hfirst,
        by omega, rfl⟩
  · rintro ⟨n, hfirst, hrounds, rfl⟩
    have hlow := hfirst.low
    -- on the number of rounds; the table differs from round to round in its counter
    induction rounds generalizing t with
    | zero => omega
    | succ rounds ih =>
      rcases hlow.eq_or_lt with rfl | hlt
      · obtain rfl : rounds = 0 := by omega
        exact .found (lookup?_generatedName_eq_none.mpr hfirst.free)
      · have hmem := hfirst.taken _ le_rfl hlt
        obtain ⟨symbol, htaken⟩ := exists_lookup?_generatedName hmem
        have hfirst' := (FirstFree.countedPast_iff hmem).mpr hfirst
        refine .again htaken (ih hfirst' ?_ hfirst'.low)
        rw [nextNumber_countedPast le_rfl]
        omega

/-- The bounded search does what rounds without a bound do. -/
theorem generates_unique (h : t.Generates rounds r) : r = t.generate := by
  obtain ⟨n, hfirst, -, rfl⟩ := generates_iff.mp h
  exact (generate_eq hfirst).symm

/-! ### Main result -/

theorem intern_of_fresh {name : String} (h : t.caseRule.fold name ∉ t.names) :
    t.intern name = (t.symbolAt t.size (t.caseRule.fold name),
      { t with names := t.caseRule.fold name :: t.names }) := by
  simp only [intern, indexOf?_eq_none_iff.mpr h]

/-- What the rounds make of a table with a first free number. -/
theorem intern_firstFree (h : t.FirstFree n) :
    (t.countedPast n).intern (generatedName n) =
      (t.symbolAt t.size (generatedName n),
        ⟨t.realm, t.caseRule, generatedName n :: t.names, n + 1⟩) := by
  have hfree : (t.countedPast n).caseRule.fold (generatedName n) ∉ (t.countedPast n).names := by
    rw [fold_generatedName]
    exact h.free
  rw [intern_of_fresh hfree, fold_generatedName]
  rfl

/-- A table that gains a new name has the symbol of that name in addition. -/
theorem Gains.named?_iff {folded : String} {old : Symbol} (h : t.Gains symbol.name u)
    (hhas : u.named? symbol.name = some symbol) (hfresh : symbol.name ∉ t.names) :
    u.named? folded = some old ↔
      t.named? folded = some old ∨ folded = symbol.name ∧ old = symbol := by
  constructor
  · -- the names are the old ones and the new one
    intro hold
    by_cases heq : folded = symbol.name
    · subst heq
      exact .inr ⟨rfl, Option.some.inj (hold.symm.trans hhas)⟩
    · have hmem : folded ∈ u.names := by
        by_contra hnot
        rw [named?_eq_none_iff.mpr hnot] at hold
        cases hold
      rw [h.names, List.mem_insert_iff] at hmem
      obtain ⟨other, hother⟩ := Option.ne_none_iff_exists'.mp
        (mt named?_eq_none_iff.mp (not_not.mpr (hmem.resolve_left heq)))
      exact .inl (hother.trans ((h.named? hother).symm.trans hold))
  · rintro (hold | ⟨rfl, rfl⟩)
    · exact h.named? hold
    · exact hhas

/-- Generating a symbol ends, and the symbol is new.  Let a new table be asked any queries.

* The rounds in which it then generates a symbol end, after at most one more of them than the table
  holds names, and only in one way.
* The symbol has the name of the first number from the counter and the size of the table on whose
  name has not been interned, and the counter is set behind that number.
* It is none of the symbols that have been answered, and none that the table had, and its name has
  not been interned.
* The table then has it, under its name, and otherwise the names and symbols that it had; it has it
  whatever is asked later. -/
theorem generation_is_fresh (realm : Nat) (rule : CaseRule) (queries : List Query) :
    let t := (empty realm rule).after queries
    let es := (empty realm rule).exchanges queries
    ∃ rounds symbol u, t.Generates rounds (symbol, u) ∧ rounds ≤ t.size + 1 ∧
      (∀ rounds' r, t.Generates rounds' r → rounds' = rounds ∧ r = (symbol, u)) ∧
      t.ask .generate = (some symbol, u) ∧
      (∃ n, t.FirstFree n ∧ symbol.name = generatedName n ∧ u.counter = n + 1) ∧
      (∀ e ∈ es, ∀ old ∈ e.answer, old ≠ symbol) ∧
      (∀ folded old, t.named? folded = some old → old ≠ symbol) ∧
      symbol.name ∉ internedBy rule es ∧
      u.names = symbol.name :: t.names ∧
      (∀ folded old, u.named? folded = some old ↔
        t.named? folded = some old ∨ folded = symbol.name ∧ old = symbol) ∧
      ∀ more, (u.after more).lookup? symbol.name = some symbol := by
  intro t es
  have htells : t.Tells es := (tells_empty realm rule).after queries
  have hrule : t.caseRule = rule := ((empty realm rule).after_keeps queries).1
  -- among the numbers from the counter on, one more than there are names, one is free
  obtain ⟨n, hhigh, hfirst⟩ := t.exists_firstFree
  have hlow := hfirst.low
  have hgenerate : t.generate = _ := (generate_eq hfirst).trans (intern_firstFree hfirst)
  have hgenerates : t.Generates (n + 1 - t.nextNumber) t.generate :=
    generates_iff.mpr ⟨n, hfirst, by omega, generate_eq hfirst⟩
  obtain ⟨-, hfresh, hgains, hhas⟩ := t.generate_spec
  have hname : t.generate.1.name = generatedName n := congrArg (·.1.name) hgenerate
  -- the new name is not among those that there are, so the symbol is not either
  have hold : ∀ folded old, t.named? folded = some old → old ≠ t.generate.1 := by
    rintro folded old h rfl
    rw [← name_of_named? h, named?_eq_none_iff.mpr hfresh] at h
    cases h
  refine ⟨_, t.generate.1, t.generate.2, hgenerates, by omega, ?_, rfl,
    ⟨n, hfirst, hname, congrArg (·.2.counter) hgenerate⟩, ?_, hold, ?_, ?_, ?_, ?_⟩
  · -- the search ends at the first free number only
    intro rounds r h
    refine ⟨?_, generates_unique h⟩
    obtain ⟨k, hfirst', hrounds, -⟩ := generates_iff.mp h
    obtain rfl := hfirst'.unique hfirst
    omega
  · exact fun e he old hanswer => hold _ old (htells.answered e he old hanswer)
  · rwa [← hrule, ← htells.mem_names]
  · rw [hgains.names, List.insert_of_not_mem hfresh]
  · exact fun folded old => hgains.named?_iff hhas hfresh
  · -- a generated name is folded already, and names are kept
    intro more
    obtain ⟨hlater, -, hkeep⟩ := t.generate.2.after_keeps more
    rw [lookup?_eq_named?, hlater, hgains.caseRule, hname, fold_generatedName, ← hname]
    exact hkeep hhas

/-- A name that looks like the next generated one is passed over. -/
example :
    let t := (empty 0 .preserve).after [.intern "#:G1"]
    t.generate.1.name = generatedName 2 ∧ t.generate.2.counter = 3 := by decide +kernel

end SymbolTable

end PocketLisp
