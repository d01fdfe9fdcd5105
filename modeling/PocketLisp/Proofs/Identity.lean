/-
PocketLisp/Proofs/Identity.lean

A symbol is its folded name.

A table is used by interning names, by looking names up and by generating
symbols.  What it has been asked and has answered is a list of exchanges.  The
table is told apart from the exchanges here: `Tells` says that a table holds
just the names that the exchanges have interned, each once, and that every
symbol that has been answered is the one that the table has for its name.
Every query keeps that (`Tells.ask`), for which the only difficulty is the
generated name: it must be its own folded name (`fold_generatedName`), and
there must be one among the numbers that are tried that has not been interned
(`exists_firstFree`).

Main result: `symbols_are_folded_names`.
-/
import Mathlib.Data.Finset.Card
import Mathlib.Data.List.Infix
import Mathlib.Data.List.Perm.Subperm
import Mathlib.Data.Nat.Find
import PocketLisp.Proofs.Interning
import PocketLisp.Proofs.Folding

namespace PocketLisp

namespace SymbolTable

/-! ### Generated names -/

theorem generatedName_chars (n : Nat) : ∀ c ∈ (generatedName n).toList, c.toNat < 0x61 := by
  intro c hc
  have hlist : (generatedName n).toList = ['#', ':', 'G'] ++ Nat.toDigits 10 n := by
    rw [generatedName, String.toList_append]
    exact congrArg _ Nat.toList_repr
  rw [hlist, List.mem_append] at hc
  rcases hc with hc | hc
  · simp only [List.mem_cons, List.not_mem_nil, or_false] at hc
    rcases hc with rfl | rfl | rfl <;> decide
  · have hdigit := Nat.isDigit_of_mem_toDigits (by decide) (by decide) hc
    simp only [Char.isDigit, Bool.and_eq_true, decide_eq_true_eq, ge_iff_le,
      UInt32.le_iff_toNat_le, Char.toNat_val, Char.reduceVal, UInt32.reduceToNat] at hdigit
    omega

/-- A generated name is folded under both case rules. -/
theorem fold_generatedName (rule : CaseRule) (n : Nat) :
    rule.fold (generatedName n) = generatedName n := by
  have hchars := generatedName_chars n
  have hnormal : Text.normalForm (generatedName n).toList = (generatedName n).toList :=
    Text.normalForm_of_ascii fun c hc => (hchars c hc).trans (by decide)
  cases rule with
  | preserve => rw [CaseRule.fold, CaseRule.foldChars, hnormal, String.ofList_toList]
  | upper =>
    rw [CaseRule.fold, CaseRule.foldChars, hnormal, Text.upper_of_ascii hchars,
      String.ofList_toList]

theorem generatedName_injective : Function.Injective generatedName := by
  intro m n h
  have hlist := congrArg String.toList h
  rw [generatedName, generatedName, String.toList_append, String.toList_append] at hlist
  have hdigits : Nat.toDigits 10 m = Nat.toDigits 10 n := by
    have := List.append_cancel_left hlist
    rwa [Nat.toString_eq_repr, Nat.toString_eq_repr, Nat.toList_repr, Nat.toList_repr] at this
  rw [← Nat.ofDigitChars_ten_toDigits (n := m), hdigits, Nat.ofDigitChars_ten_toDigits]

/-- One of the numbers that are tried gives a name that is not in the table. -/
theorem exists_fresh (names : List String) (n : Nat) :
    ∃ k, n ≤ k ∧ k ≤ n + names.length ∧ generatedName k ∉ names := by
  by_contra hall
  push Not at hall
  have hsubset : (List.range (names.length + 1)).map (fun k => generatedName (n + k)) ⊆ names := by
    intro name hname
    obtain ⟨k, hk, rfl⟩ := List.mem_map.mp hname
    have hlt := List.mem_range.mp hk
    exact hall (n + k) (by omega) (by omega)
  have hnodup : ((List.range (names.length + 1)).map fun k => generatedName (n + k)).Nodup :=
    List.nodup_range.map fun a b hab => Nat.add_left_cancel (generatedName_injective hab)
  have hlength := (List.subperm_of_subset hnodup hsubset).length_le
  rw [List.length_map, List.length_range] at hlength
  omega

/-! ### Symbols by their folded names -/

variable {t u : SymbolTable} {folded name : String} {symbol : Symbol} {n k : Nat}

/-- The symbol of a folded name. -/
def named? (t : SymbolTable) (folded : String) : Option Symbol :=
  (indexOf? folded t.names).map (t.symbolAt · folded)

theorem lookup?_eq_named? (t : SymbolTable) (name : String) :
    t.lookup? name = t.named? (t.caseRule.fold name) := rfl

theorem name_of_named? (h : t.named? folded = some symbol) : symbol.name = folded := by
  obtain ⟨index, -, rfl⟩ := Option.map_eq_some_iff.mp h
  rfl

theorem indexOf?_eq_none_iff {names : List String} :
    indexOf? folded names = none ↔ folded ∉ names := by
  induction names with
  | nil => simp [indexOf?]
  | cons name names ih =>
    rw [indexOf?, List.mem_cons, not_or, ← ih]
    by_cases h : name = folded
    · simp [h]
    · simp [h, Ne.symm h]

/-- The place of a name determines it. -/
theorem getElem?_of_indexOf? {names : List String} {index : Nat}
    (h : indexOf? folded names = some index) : names.reverse[index]? = some folded := by
  induction names with
  | nil => cases h
  | cons name names ih =>
    rw [indexOf?] at h
    rw [List.reverse_cons]
    split at h
    · next heq =>
      obtain rfl := eq_of_beq heq
      obtain rfl := Option.some.inj h
      rw [List.getElem?_append_right (List.length_reverse ..).le, List.length_reverse, Nat.sub_self]
      rfl
    · exact List.getElem?_append_left (List.getElem?_eq_some_iff.mp (ih h)).1 ▸ ih h

theorem named?_eq_none_iff : t.named? folded = none ↔ folded ∉ t.names := by
  rw [named?, Option.map_eq_none_iff, indexOf?_eq_none_iff]

/-- A table after one more name has been put into it, if it was not there. -/
structure Gains (t : SymbolTable) (folded : String) (u : SymbolTable) : Prop where
  realm : u.realm = t.realm
  caseRule : u.caseRule = t.caseRule
  names : u.names = t.names.insert folded

theorem gains_intern (t : SymbolTable) (name : String) :
    t.Gains (t.caseRule.fold name) (t.intern name).2 := by
  rcases h : indexOf? (t.caseRule.fold name) t.names with - | index
  · have hfresh := indexOf?_eq_none_iff.mp h
    simp only [intern, h]
    exact ⟨rfl, rfl, (List.insert_of_not_mem hfresh).symm⟩
  · have hold : t.caseRule.fold name ∈ t.names := by
      by_contra hfresh
      rw [indexOf?_eq_none_iff.mpr hfresh] at h
      cases h
    simp only [intern, h]
    exact ⟨rfl, rfl, (List.insert_of_mem hold).symm⟩

namespace Gains

/-- The symbols that a table has are kept. -/
theorem named? {added : String} (h : t.Gains added u) (hs : t.named? folded = some symbol) :
    u.named? folded = some symbol := by
  have hsymbol : u.symbolAt = t.symbolAt := by
    funext index folded
    rw [symbolAt, symbolAt, h.realm, h.caseRule]
  rw [SymbolTable.named?, h.names, hsymbol]
  by_cases hmem : added ∈ t.names
  · rwa [List.insert_of_mem hmem]
  · have hne : added ≠ folded := by
      rintro rfl
      rw [named?_eq_none_iff.mpr hmem] at hs
      cases hs
    rw [List.insert_of_not_mem hmem, indexOf?, beq_eq_false_iff_ne.mpr hne]
    exact hs

end Gains

/-! ### The first free number -/

/-- The first number that is tried for a new name. -/
def nextNumber (t : SymbolTable) : Nat := max t.counter t.size

/-- A table whose counter has been set behind a number. -/
def countedPast (t : SymbolTable) (n : Nat) : SymbolTable := { t with counter := n + 1 }

/-- The first number from that one on whose name has not been interned. -/
structure FirstFree (t : SymbolTable) (n : Nat) : Prop where
  low : t.nextNumber ≤ n
  taken : ∀ m, t.nextNumber ≤ m → m < n → generatedName m ∈ t.names
  free : generatedName n ∉ t.names

theorem lookup?_generatedName (t : SymbolTable) (n : Nat) :
    t.lookup? (generatedName n) = t.named? (generatedName n) := by
  rw [lookup?_eq_named?, fold_generatedName]

theorem lookup?_generatedName_eq_none :
    t.lookup? (generatedName n) = none ↔ generatedName n ∉ t.names := by
  rw [lookup?_generatedName, named?_eq_none_iff]

theorem exists_lookup?_generatedName (h : generatedName n ∈ t.names) :
    ∃ symbol, t.lookup? (generatedName n) = some symbol := by
  rw [← Option.ne_none_iff_exists', ne_eq, lookup?_generatedName_eq_none, not_not]
  exact h

theorem FirstFree.unique (h : t.FirstFree n) (h' : t.FirstFree k) : n = k := by
  rcases lt_trichotomy n k with hlt | heq | hgt
  · exact absurd (h'.taken n h.low hlt) h.free
  · exact heq
  · exact absurd (h.taken k h'.low hgt) h'.free

/-- There are not more names in the way than the table holds. -/
theorem exists_firstFree (t : SymbolTable) : ∃ n ≤ t.nextNumber + t.size, t.FirstFree n := by
  obtain ⟨k, hlow, hhigh, hfree⟩ := exists_fresh t.names t.nextNumber
  have hex : ∃ k, t.nextNumber ≤ k ∧ generatedName k ∉ t.names := ⟨k, hlow, hfree⟩
  classical
  refine ⟨Nat.find hex, (Nat.find_min' hex ⟨hlow, hfree⟩).trans hhigh, (Nat.find_spec hex).1, ?_,
    (Nat.find_spec hex).2⟩
  intro m hm hlt
  by_contra hnot
  exact Nat.find_min hex hlt ⟨hm, hnot⟩

/-- The bounded search tries numbers up to the first free one, if it is among them. -/
theorem generateFrom_eq {tries : Nat} (hlow : k ≤ n) (hhigh : n ≤ k + tries)
    (htaken : ∀ m, k ≤ m → m < n → generatedName m ∈ t.names) (hfree : generatedName n ∉ t.names) :
    t.generateFrom k tries = (t.countedPast n).intern (generatedName n) := by
  induction tries generalizing k with
  | zero =>
    obtain rfl : k = n := by omega
    rfl
  | succ tries ih =>
    rw [generateFrom]
    rcases hlow.eq_or_lt with rfl | hlt
    · rw [lookup?_generatedName_eq_none.mpr hfree]
      rfl
    · obtain ⟨symbol, hsymbol⟩ := exists_lookup?_generatedName (htaken k le_rfl hlt)
      rw [hsymbol]
      exact ih hlt (by omega) fun m hm => htaken m (Nat.le_of_lt hm)

theorem generate_eq (h : t.FirstFree n) :
    t.generate = (t.countedPast n).intern (generatedName n) := by
  obtain ⟨k, hhigh, hfirst⟩ := t.exists_firstFree
  obtain rfl := hfirst.unique h
  exact generateFrom_eq h.low hhigh h.taken h.free

/-- A generated symbol has a name of its own, which is folded and was not in the table. -/
theorem generate_spec (t : SymbolTable) :
    (∃ k, t.generate.1.name = generatedName k) ∧ t.generate.1.name ∉ t.names ∧
      t.Gains t.generate.1.name t.generate.2 ∧
        t.generate.2.named? t.generate.1.name = some t.generate.1 := by
  obtain ⟨k, -, hfirst⟩ := t.exists_firstFree
  have heq := generate_eq hfirst
  have hname : t.generate.1.name = generatedName k := by
    rw [heq, name_intern]
    exact fold_generatedName _ k
  have hgains := gains_intern (t.countedPast k) (generatedName k)
  rw [← heq, fold_generatedName, ← hname] at hgains
  have hlookup := lookup?_intern (t.countedPast k) (generatedName k)
  rw [← heq, lookup?_eq_named?, fold_generatedName, ← hname] at hlookup
  exact ⟨⟨k, hname⟩, hname ▸ hfirst.free, ⟨hgains.realm, hgains.caseRule, hgains.names⟩, hlookup⟩

/-! ### Queries -/

/-- A use of a table. -/
inductive Query where
  | intern (name : String)
  | lookup (name : String)
  | generate
  deriving DecidableEq, Repr

/-- The answer to a query, and the table after it. -/
def ask (t : SymbolTable) : Query → Option Symbol × SymbolTable
  | .intern name => (some (t.intern name).1, (t.intern name).2)
  | .lookup name => (t.lookup? name, t)
  | .generate => (some t.generate.1, t.generate.2)

/-- The table after queries that are put one after another. -/
def after (t : SymbolTable) (queries : List Query) : SymbolTable :=
  queries.foldl (fun t query => (t.ask query).2) t

/-- A query with the answer to it. -/
structure Exchange where
  query : Query
  answer : Option Symbol
  deriving DecidableEq, Repr

/-- Queries that are put one after another, with the answers to them. -/
def exchanges (t : SymbolTable) : List Query → List Exchange
  | [] => []
  | query :: queries => ⟨query, (t.ask query).1⟩ :: (t.ask query).2.exchanges queries

/-- The folded name that an exchange asks to be in the table from then on. -/
def Exchange.interned? (rule : CaseRule) (e : Exchange) : Option String :=
  match e.query with
  | .intern name => some (rule.fold name)
  | .lookup _ => none
  | .generate => e.answer.map Symbol.name

/-- The folded names that have been interned in the course of some exchanges. -/
def internedBy (rule : CaseRule) (es : List Exchange) : List String :=
  es.filterMap (Exchange.interned? rule)

variable {es : List Exchange}

/-- To look a name up leaves the table as it is; any other query interns the name of its answer. -/
theorem ask_cases (t : SymbolTable) (query : Query) :
    (∃ name, query = .lookup name) ∨
      ∃ symbol, t.ask query = (some symbol, (t.ask query).2) ∧
        Exchange.interned? t.caseRule ⟨query, some symbol⟩ = some symbol.name ∧
        t.Gains symbol.name (t.ask query).2 ∧
        (t.ask query).2.named? symbol.name = some symbol := by
  cases query with
  | intern name =>
    refine .inr ⟨(t.intern name).1, rfl, congrArg some (t.name_intern name).symm, ?_, ?_⟩
    · exact t.name_intern name ▸ t.gains_intern name
    · have hlookup := t.lookup?_intern name
      rwa [lookup?_eq_named?, (t.gains_intern name).caseRule, ← t.name_intern name] at hlookup
  | lookup name => exact .inl ⟨name, rfl⟩
  | generate => exact .inr ⟨t.generate.1, rfl, rfl, t.generate_spec.2.2⟩

/-- A table holds what has been interned in the course of some exchanges and nothing else, and has
all symbols that were answered. -/
structure Tells (t : SymbolTable) (es : List Exchange) : Prop where
  nodup : t.names.Nodup
  mem_names : ∀ {folded}, folded ∈ t.names ↔ folded ∈ internedBy t.caseRule es
  answered : ∀ e ∈ es, ∀ symbol ∈ e.answer, t.named? symbol.name = some symbol
  /-- the name that is interned is that of the answer -/
  interned : ∀ e ∈ es, ∀ folded ∈ e.interned? t.caseRule,
    ∃ symbol, e.answer = some symbol ∧ symbol.name = folded

theorem internedBy_append (rule : CaseRule) (es : List Exchange) (e : Exchange) :
    internedBy rule (es ++ [e]) = internedBy rule es ++ (e.interned? rule).toList := by
  rw [internedBy, List.filterMap_append]
  rcases h : e.interned? rule with - | folded <;> simp [internedBy, h]

/-- What a query does. -/
theorem Tells.ask (h : t.Tells es) (query : Query) :
    (t.ask query).2.Tells (es ++ [⟨query, (t.ask query).1⟩]) := by
  rcases t.ask_cases query with ⟨name, rfl⟩ | ⟨symbol, heq, hname, hgains, hhas⟩
  · refine ⟨h.nodup, ?_, ?_, ?_⟩
    · intro folded
      rw [internedBy_append]
      exact h.mem_names.trans (by simp [Exchange.interned?, SymbolTable.ask])
    · intro e he symbol hsymbol
      rcases List.mem_append.mp he with he | he
      · exact h.answered e he symbol hsymbol
      · obtain rfl := List.mem_singleton.mp he
        have hlookup : t.named? (t.caseRule.fold name) = some symbol := hsymbol
        rwa [name_of_named? hlookup]
    · intro e he folded hfolded
      rcases List.mem_append.mp he with he | he
      · exact h.interned e he folded hfolded
      · obtain rfl := List.mem_singleton.mp he
        cases hfolded
  · have hanswer : (t.ask query).1 = some symbol := congrArg Prod.fst heq
    rw [hanswer]
    refine ⟨hgains.names ▸ h.nodup.insert, ?_, ?_, ?_⟩
    · intro folded
      rw [hgains.names, hgains.caseRule, internedBy_append, hname, List.mem_insert_iff,
        List.mem_append, h.mem_names, Option.toList_some, List.mem_singleton]
      exact or_comm
    · intro e he other hother
      rcases List.mem_append.mp he with he | he
      · exact hgains.named? (h.answered e he other hother)
      · obtain rfl := List.mem_singleton.mp he
        obtain rfl := Option.some.inj hother
        exact hhas
    · rw [hgains.caseRule]
      intro e he folded hfolded
      rcases List.mem_append.mp he with he | he
      · exact h.interned e he folded hfolded
      · obtain rfl := List.mem_singleton.mp he
        exact ⟨symbol, rfl, Option.some.inj (hname.symm.trans hfolded)⟩

/-- What any number of queries do. -/
theorem Tells.after (h : t.Tells es) (queries : List Query) :
    (t.after queries).Tells (es ++ t.exchanges queries) := by
  induction queries generalizing t es with
  | nil => simpa [SymbolTable.after, exchanges] using h
  | cons query queries ih =>
    have hrest := ih (h.ask query)
    rwa [List.append_assoc] at hrest

theorem Tells.eq_iff (h : t.Tells es) {e e' : Exchange} (he : e ∈ es) (he' : e' ∈ es)
    {symbol symbol' : Symbol} (hsymbol : symbol ∈ e.answer) (hsymbol' : symbol' ∈ e'.answer) :
    symbol = symbol' ↔ symbol.name = symbol'.name := by
  refine ⟨congrArg _, fun hname => ?_⟩
  have hhas := h.answered e he symbol hsymbol
  rw [hname, h.answered e' he' symbol' hsymbol'] at hhas
  exact (Option.some.inj hhas).symm

/-- No two names are at one place. -/
theorem name_eq_of_index (h : t.named? symbol.name = some symbol) {symbol' : Symbol}
    (h' : t.named? symbol'.name = some symbol') (hindex : symbol.index = symbol'.index) :
    symbol.name = symbol'.name := by
  obtain ⟨index, hplace, hat⟩ := Option.map_eq_some_iff.mp h
  obtain ⟨index', hplace', hat'⟩ := Option.map_eq_some_iff.mp h'
  have hsame : index = index' := by
    rw [← hat, ← hat'] at hindex
    exact hindex
  have hname := getElem?_of_indexOf? hplace
  rw [hsame, getElem?_of_indexOf? hplace'] at hname
  exact (Option.some.inj hname).symm

/-- A table has the symbols that were answered when their names were interned. -/
theorem Tells.named?_iff (h : t.Tells es) : t.named? folded = some symbol ↔
    ∃ e ∈ es, e.interned? t.caseRule = some folded ∧ e.answer = some symbol := by
  constructor
  · intro hs
    have hmem : folded ∈ t.names := by
      by_contra hnot
      rw [named?_eq_none_iff.mpr hnot] at hs
      cases hs
    obtain ⟨e, he, hinterned⟩ := List.mem_filterMap.mp (h.mem_names.mp hmem)
    obtain ⟨other, hanswer, rfl⟩ := h.interned e he _ hinterned
    have hsame := h.answered e he other hanswer
    rw [hs] at hsame
    exact ⟨e, he, hinterned, hanswer.trans hsame.symm⟩
  · rintro ⟨e, he, hinterned, hanswer⟩
    obtain ⟨other, hother, rfl⟩ := h.interned e he _ hinterned
    obtain rfl := Option.some.inj (hanswer.symm.trans hother)
    exact h.answered e he symbol hanswer

theorem Tells.size_eq (h : t.Tells es) : t.size = (internedBy t.caseRule es).toFinset.card := by
  have hsame : (internedBy t.caseRule es).toFinset = t.names.toFinset := by
    ext folded
    rw [List.mem_toFinset, List.mem_toFinset, h.mem_names]
  rw [hsame, List.toFinset_card_of_nodup h.nodup]
  rfl

theorem tells_empty (realm : Nat) (rule : CaseRule) : (empty realm rule).Tells [] where
  nodup := List.nodup_nil
  mem_names := Iff.rfl
  answered := nofun
  interned := nofun

/-- Queries put names in front of those that are there, and keep all symbols. -/
theorem after_keeps (t : SymbolTable) (queries : List Query) :
    (t.after queries).caseRule = t.caseRule ∧ t.names <:+ (t.after queries).names ∧
      ∀ {folded symbol}, t.named? folded = some symbol →
        (t.after queries).named? folded = some symbol := by
  induction queries generalizing t with
  | nil => exact ⟨rfl, List.suffix_refl _, id⟩
  | cons query queries ih =>
    obtain ⟨hrule, hnames, hkeep⟩ := ih (t.ask query).2
    rcases t.ask_cases query with ⟨name, rfl⟩ | ⟨symbol, -, -, hgains, -⟩
    · exact ⟨hrule, hnames, hkeep⟩
    · refine ⟨hrule.trans hgains.caseRule, ?_, fun hs => hkeep (hgains.named? hs)⟩
      exact (hgains.names ▸ List.suffix_insert _ _ : t.names <:+ _).trans hnames

/-! ### Main result -/

/-- A symbol is its folded name.  Let a new table be asked any queries, and later any more.

* Two symbols that were answered are equal, and are at one place of the table, exactly if they have
  one name.
* The symbol of a name that is interned or looked up has that name, folded.  A generated symbol has
  a generated name, which is folded and has not been interned before.
* A name is found exactly if its folded name has been interned, and then as the symbol that was
  answered to that; looking it up changes nothing.
* The names of the table stay in their places, and all symbols that were answered are found later.
* The size of the table is the number of different folded names that have been interned. -/
theorem symbols_are_folded_names (realm : Nat) (rule : CaseRule) (queries more : List Query) :
    let t := (empty realm rule).after queries
    let es := (empty realm rule).exchanges queries
    let later := (empty realm rule).after (queries ++ more)
    (∀ e ∈ es, ∀ e' ∈ es, ∀ symbol ∈ e.answer, ∀ symbol' ∈ e'.answer,
        (symbol = symbol' ↔ symbol.name = symbol'.name) ∧
          (symbol.index = symbol'.index ↔ symbol.name = symbol'.name)) ∧
      (∀ name, ∃ symbol, (t.ask (.intern name)).1 = some symbol ∧
        symbol.name = rule.fold name) ∧
      (∀ name, ∀ symbol ∈ (t.ask (.lookup name)).1, symbol.name = rule.fold name) ∧
      (∃ k symbol, (t.ask .generate).1 = some symbol ∧ symbol.name = generatedName k ∧
        symbol.name = rule.fold (generatedName k) ∧ symbol.name ∉ internedBy rule es) ∧
      (∀ name, (t.ask (.lookup name)).2 = t ∧
        ((t.ask (.lookup name)).1 = none ↔ rule.fold name ∉ internedBy rule es) ∧
        ∀ symbol, (t.ask (.lookup name)).1 = some symbol ↔
          ∃ e ∈ es, e.interned? rule = some (rule.fold name) ∧ e.answer = some symbol) ∧
      t.names <:+ later.names ∧
      (∀ e ∈ es, ∀ symbol ∈ e.answer, ∀ name, rule.fold name = symbol.name →
        (later.ask (.lookup name)).1 = some symbol) ∧
      t.size = (internedBy rule es).toFinset.card := by
  intro t es later
  -- what has been answered determines the table, and the later table keeps it
  have htells : t.Tells es := (tells_empty realm rule).after queries
  have hrule : t.caseRule = rule := ((empty realm rule).after_keeps queries).1
  have hlater : later = t.after more := List.foldl_append
  obtain ⟨hlaterRule, hsuffix, hkeep⟩ := t.after_keeps more
  rw [← hlater] at hlaterRule hsuffix hkeep
  have hfold : ∀ name, (t.ask (.lookup name)).1 = t.named? (rule.fold name) := by
    intro name
    rw [← hrule]
    rfl
  refine ⟨?_, ?_, ?_, ?_, ?_, hsuffix, ?_, hrule ▸ htells.size_eq⟩
  · intro e he e' he' symbol hsymbol symbol' hsymbol'
    have heq := htells.eq_iff he he' hsymbol hsymbol'
    refine ⟨heq, fun hindex => ?_, fun hname => congrArg _ (heq.mpr hname)⟩
    exact name_eq_of_index (htells.answered e he symbol hsymbol)
      (htells.answered e' he' symbol' hsymbol') hindex
  · intro name
    exact ⟨_, rfl, hrule ▸ t.name_intern name⟩
  · intro name symbol hsymbol
    rw [hfold] at hsymbol
    exact name_of_named? hsymbol
  · -- a generated name is spelled so that folding keeps it
    obtain ⟨⟨k, hk⟩, hfresh, -, -⟩ := t.generate_spec
    refine ⟨k, _, rfl, hk, hk.trans (fold_generatedName rule k).symm, ?_⟩
    rwa [← hrule, ← htells.mem_names]
  · intro name
    rw [hfold]
    refine ⟨rfl, ?_, fun symbol => hrule ▸ htells.named?_iff⟩
    rw [named?_eq_none_iff, htells.mem_names, hrule]
  · intro e he symbol hsymbol name hname
    have hnamed := hkeep (htells.answered e he symbol hsymbol)
    rw [← hname, ← hrule, ← hlaterRule] at hnamed
    exact hnamed

end SymbolTable

end PocketLisp
