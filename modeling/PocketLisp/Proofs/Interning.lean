/-
PocketLisp/Proofs/Interning.lean

Symbol tables only grow.

Interning a name that has been interned gives the symbol it gave before
(`SymbolTable.intern_of_lookup?`), and keeps all other names
(`SymbolTable.extends_intern`).  Under both case rules every keyword is
recognized by its spelling (`Keyword.recognize?_fold`).
-/
import PocketLisp.Store.Basic

namespace PocketLisp

/-- No two keywords have the same folded spelling. -/
theorem Keyword.recognize?_fold (rule : CaseRule) (k : Keyword) :
    recognize? rule (rule.fold k.spelling) = some k := by
  have h : ∀ k ∈ all, recognize? rule (rule.fold k.spelling) = some k := by
    cases rule <;> decide +kernel
  exact h k (mem_all k)

namespace SymbolTable

variable {t u v : SymbolTable} {name : String} {symbol : Symbol}

/-- The second table has all the names of the first, and under the same case rule. -/
structure Extends (t u : SymbolTable) : Prop where
  caseRule : u.caseRule = t.caseRule
  lookup? : ∀ {name symbol}, t.lookup? name = some symbol → u.lookup? name = some symbol

theorem Extends.refl (t : SymbolTable) : t.Extends t := ⟨rfl, id⟩

theorem Extends.trans (h : t.Extends u) (h' : u.Extends v) : t.Extends v :=
  ⟨h'.caseRule.trans h.caseRule, fun hl => h'.lookup? (h.lookup? hl)⟩

/-- A name that has been interned keeps its symbol, and the table stays as it is. -/
theorem intern_of_lookup? (h : t.lookup? name = some symbol) : t.intern name = (symbol, t) := by
  obtain ⟨index, hindex, rfl⟩ := Option.map_eq_some_iff.mp h
  simp only [intern, hindex]

theorem keyword_intern (t : SymbolTable) (name : String) :
    (t.intern name).1.keyword = Keyword.recognize? t.caseRule (t.caseRule.fold name) := by
  rcases h : indexOf? (t.caseRule.fold name) t.names with - | index <;>
    simp only [intern, h] <;> rfl

theorem extends_intern (t : SymbolTable) (name : String) : t.Extends (t.intern name).2 := by
  rcases h : indexOf? (t.caseRule.fold name) t.names with - | index
  · simp only [intern, h]
    refine ⟨rfl, fun {other symbol} hl => ?_⟩
    obtain ⟨index, hindex, rfl⟩ := Option.map_eq_some_iff.mp hl
    -- the new name is none of the old ones
    have hne : t.caseRule.fold name ≠ t.caseRule.fold other := by
      intro heq
      rw [heq, hindex] at h
      cases h
    simp only [lookup?, indexOf?, beq_eq_false_iff_ne.mpr hne, hindex]
    rfl
  · simp only [intern, h]
    exact .refl t

/-- A name that is interned is in the table. -/
theorem lookup?_intern (t : SymbolTable) (name : String) :
    (t.intern name).2.lookup? name = some (t.intern name).1 := by
  rcases h : indexOf? (t.caseRule.fold name) t.names with - | index
  · simp only [intern, h, lookup?, indexOf?, beq_self_eq_true, if_true]
    rfl
  · simp only [intern, h, lookup?]
    rfl

/-- The name of a symbol is folded. -/
theorem name_intern (t : SymbolTable) (name : String) :
    (t.intern name).1.name = t.caseRule.fold name := by
  rcases h : indexOf? (t.caseRule.fold name) t.names with - | index <;>
    simp only [intern, h] <;> rfl

theorem extends_generateFrom (t : SymbolTable) (n tries : Nat) :
    t.Extends (t.generateFrom n tries).2 := by
  -- the counter has nothing to do with the names
  have hcounter : ∀ m, t.Extends { t with counter := m } := fun _ => ⟨rfl, id⟩
  induction tries generalizing n with
  | zero => exact (hcounter _).trans (extends_intern _ _)
  | succ tries ih =>
    rw [generateFrom]
    rcases t.lookup? (generatedName n) with - | symbol
    · exact (hcounter _).trans (extends_intern _ _)
    · exact ih (n + 1)

theorem extends_generate (t : SymbolTable) : t.Extends t.generate.2 :=
  extends_generateFrom t _ _

end SymbolTable

namespace Store

/-- The symbol table of a frame. -/
def symbols (s : Store) (env : FrameId) : SymbolTable := (s.realm env).symbols

variable {s : Store} {env : FrameId} {name : String} {symbol : Symbol}

theorem keyword_intern (s : Store) (env : FrameId) (name : String) :
    (s.intern env name).1.keyword =
      Keyword.recognize? (s.symbols env).caseRule ((s.symbols env).caseRule.fold name) :=
  SymbolTable.keyword_intern _ _

theorem intern_of_lookup? (h : (s.symbols env).lookup? name = some symbol) :
    (s.intern env name).1 = symbol :=
  congrArg Prod.fst (SymbolTable.intern_of_lookup? h)

/-- Interning adds to the symbol table of a realm, if there is that realm. -/
theorem symbols_intern (s : Store) (env : FrameId) (name : String) :
    (s.intern env name).2.symbols env =
      if s.realmOf env < s.realms.size then ((s.symbols env).intern name).2 else s.symbols env := by
  have hrealm : (s.intern env name).2.realmOf env = s.realmOf env := rfl
  simp only [symbols, realm, hrealm, Array.getD_eq_getD_getElem?]
  simp only [intern, modifyRealm, Array.getElem?_modify, if_true]
  rcases e : s.realms[s.realmOf env]? with - | r
  · have hsize : ¬ s.realmOf env < s.realms.size := by simpa using e
    rw [if_neg hsize]
    rfl
  · obtain ⟨hsize, -⟩ := Array.getElem?_eq_some_iff.mp e
    simp only [if_pos hsize, realm, Array.getD_eq_getD_getElem?, e]
    rfl

theorem extends_intern (s : Store) (env : FrameId) (name : String) :
    (s.symbols env).Extends ((s.intern env name).2.symbols env) := by
  rw [symbols_intern]
  split
  · exact SymbolTable.extends_intern _ _
  · exact .refl _

/-- An atom that is spelled like a keyword is that keyword. -/
theorem keyword_intern_spelling (s : Store) (env : FrameId) (k : Keyword) :
    (s.intern env k.spelling).1.keyword = some k := by
  rw [keyword_intern, Keyword.recognize?_fold]

/-! ### Stores with the same names -/

/-- Two stores in which a frame has the same symbol table. -/
structure SameNames (env : FrameId) (s t : Store) : Prop where
  realmOf : t.realmOf env = s.realmOf env
  size : t.realms.size = s.realms.size
  symbols : t.symbols env = s.symbols env

namespace SameNames

variable {t : Store}

theorem refl (env : FrameId) (s : Store) : SameNames env s s := ⟨rfl, rfl, rfl⟩

theorem intern_eq (h : SameNames env s t) (name : String) :
    (t.intern env name).1 = (s.intern env name).1 := by
  show ((t.symbols env).intern name).1 = ((s.symbols env).intern name).1
  rw [h.symbols]

theorem intern (h : SameNames env s t) (name : String) :
    SameNames env (s.intern env name).2 (t.intern env name).2 where
  realmOf := h.realmOf
  size := by
    show (t.realms.modify _ _).size = (s.realms.modify _ _).size
    rw [Array.size_modify, Array.size_modify, h.size]
  symbols := by rw [symbols_intern, symbols_intern, h.symbols, h.realmOf, h.size]

end SameNames

end Store

end PocketLisp
