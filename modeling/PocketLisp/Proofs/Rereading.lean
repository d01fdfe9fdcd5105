/-
PocketLisp/Proofs/Rereading.lean

What reading makes of a text prints back to itself.

A form that has been read as data is readable if its numbers are finite and its
names are read as they are (`Reads.rereadable`).  An atom is a word and no
number, and both are true of its folded name (`Word.fold`, `parse?_fold`),
except for two things: normalization may make a semicolon, with which a comment
starts; and under the upper-case rule a name may be folded once more
(`Symbol.Settled`, `reading_makes_semicolon`).  Finite numbers are read as they
are (`Number.readsBack`).

Main result: `print_of_read`.
-/
import PocketLisp.Proofs.Folding
import PocketLisp.Proofs.Growth
import PocketLisp.Proofs.RoundTrip
import PocketLisp.Proofs.Shortest

namespace PocketLisp

/-! ### Atoms -/

/-- An atom that is a symbol is a word, and no number. -/
theorem Token.word_of_next {source rest : Source} {name : String}
    (h : next source = (.ok (.symbol name), rest)) :
    Word name.toList ∧ Number.parse? name.toList = none := by
  have hhead : ∀ c ∈ source.skip.head?, Text.isBlank c = false ∧ c ≠ ';' :=
    fun _ hc => Source.head_skip hc
  -- blanks and comments are skipped, so an atom starts with neither
  rw [next] at h
  generalize source.skip = s at h hhead
  fun_cases take s with
  | case1 | case2 cs | case3 cs | case4 cs => cases h
  | case5 cs content rest' htake => simp [take, htake] at h
  | case6 cs htake => simp [take, htake] at h
  | case7 c cs hleft hright hquote hdouble _ =>
    obtain ⟨hblank, hsemi⟩ := hhead c rfl
    have hplain : isDelimiter c = false := by
      have hleft : c ≠ '(' := hleft
      have hright : c ≠ ')' := hright
      have hdouble : c ≠ '"' := hdouble
      simp [isDelimiter, hblank, hsemi, hleft, hright, hdouble]
    -- the word ends in front of a delimiter, and a quote mark would have been a token
    have hword : Word ((c :: cs).takeWhile fun c => !isDelimiter c) := by
      refine ⟨by simp [hplain], fun d hd => ?_, ?_⟩
      · simpa using List.all_eq_true.mp List.all_takeWhile d hd
      · simpa [hplain] using hquote
    rw [take.eq_6 c cs hleft hright hquote hdouble] at h
    generalize (c :: cs).takeWhile (fun c => !isDelimiter c) = word at h hword
    rw [ofAtom] at h
    split at h
    · cases h
    · next hnone =>
      cases h
      rw [String.toList_ofList]
      exact ⟨hword, hnone⟩

theorem Symbol.atom_of_form {s : Symbol} {f : SpecialForm} (h : s.keyword = some (.form f)) :
    s.atom = .symbol s := by
  rw [atom, h]

/-- A name that is interned is in the symbol table of a realm, if there is that realm. -/
theorem Store.lookup?_intern {s : Store} {env : FrameId} (henv : s.realmOf env < s.realms.size)
    (name : String) :
    ((s.intern env name).2.symbols env).lookup? name = some (s.intern env name).1 := by
  rw [symbols_intern, if_pos henv]
  exact (s.symbols env).lookup?_intern name

/-- The name of a symbol has no semicolon in it, and is not folded any further. -/
structure Symbol.Settled (rule : CaseRule) (s : Symbol) : Prop where
  plain : ';' ∉ s.name.toList
  folded : rule = .upper → rule.fold s.name = s.name

/-- What is interned for a word that is no number is read as it is printed. -/
theorem Symbol.Readable.intern {s : Store} {env : FrameId} (henv : s.realmOf env < s.realms.size)
    {name : String} (hword : Word name.toList) (hnumber : Number.parse? name.toList = none)
    (hsettled : (s.intern env name).1.Settled (s.symbols env).caseRule)
    (hnil : (s.intern env name).1.keyword ≠ some .nil)
    (ht : (s.intern env name).1.keyword ≠ some .t) :
    (s.intern env name).1.Readable ((s.intern env name).2.symbols env) := by
  have hname : (s.intern env name).1.name = (s.symbols env).caseRule.fold name :=
    (s.symbols env).name_intern name
  have hchars : (s.intern env name).1.name.toList =
      (s.symbols env).caseRule.foldChars name.toList := by
    rw [hname, CaseRule.fold, String.toList_ofList]
  have hrule := (s.extends_intern env name).caseRule
  refine ⟨⟨name, Store.lookup?_intern henv name⟩, ?_, ?_, ?_, hnil, ht⟩
  · rw [hrule]
    -- kept names are settled as they are, upper-cased ones by the hypothesis
    cases hcase : (s.symbols env).caseRule with
    | preserve => rw [hname, hcase, CaseRule.fold_fold_preserve]
    | upper => exact hcase ▸ hsettled.folded hcase
  · have hplain := hsettled.plain
    rw [hchars] at hplain ⊢
    exact hword.fold _ hplain
  · rw [hchars]
    exact parse?_fold _ hnumber

theorem Symbol.Readable.mono {t u : SymbolTable} {s : Symbol} (h : s.Readable t)
    (htu : t.Extends u) : s.Readable u :=
  { h with
    interned := h.interned.imp fun _ => htu.lookup?
    folded := htu.caseRule ▸ h.folded }

/-! ### Forms -/

namespace Value

/-- The symbols in a value. -/
def symbols : Value → List Symbol
  | .symbol s => [s]
  | .cons _ a d => a.symbols ++ d.symbols
  | _ => []

theorem Readable.mono {t u : SymbolTable} {v : Value} (h : v.Readable t) (htu : t.Extends u) :
    v.Readable u := by
  induction h with
  | nil => exact .nil
  | t => exact .t
  | number hx => exact .number hx
  | text => exact .text
  | symbol hs => exact .symbol (hs.mono htu)
  | cons _ hd _ iha ihd => exact .cons iha hd ihd

/-- A value is read as it is printed, if its numbers are finite and its names settled. -/
def Rereadable (table : SymbolTable) (v : Value) : Prop :=
  (∀ x ∈ v.numbers, x.isFinite = true) → (∀ s ∈ v.symbols, s.Settled table.caseRule) →
    v.Readable table

namespace Rereadable

variable {t u : SymbolTable}

theorem mono {v : Value} (h : v.Rereadable t) (htu : t.Extends u) : v.Rereadable u :=
  fun hnumbers hsymbols => (h hnumbers (htu.caseRule ▸ hsymbols)).mono htu

theorem chain {reversed : List Value} {tail : Value} (h : ∀ v ∈ reversed, v.Rereadable t)
    (hlist : tail.isList = true) (htail : tail.Rereadable t) (next : ObjectId) :
    (Value.chain next reversed tail).1.Rereadable t := by
  induction reversed generalizing next tail with
  | nil => exact htail
  | cons v reversed ih =>
    obtain ⟨hv, hreversed⟩ := List.forall_mem_cons.mp h
    refine ih hreversed rfl (fun hnumbers hsymbols => ?_) (next + 1)
    rw [numbers, List.forall_mem_append] at hnumbers
    rw [symbols, List.forall_mem_append] at hsymbols
    exact .cons (hv hnumbers.1 hsymbols.1) hlist (htail hnumbers.2 hsymbols.2)

theorem addList {items : List Value} (h : ∀ v ∈ items, v.Rereadable t) (s : Store) :
    (s.addList items).1.Rereadable t :=
  chain (fun v hv => h v (List.mem_reverse.mp hv)) rfl (fun _ _ => .nil) s.nextId

/-- What an atom stands for. -/
theorem atom {s : Store} {env : FrameId} (henv : s.realmOf env < s.realms.size) {name : String}
    (hword : Word name.toList) (hnumber : Number.parse? name.toList = none) :
    (s.intern env name).1.atom.Rereadable ((s.intern env name).2.symbols env) := by
  intro _ hsymbols
  rw [(s.extends_intern env name).caseRule] at hsymbols
  unfold Symbol.atom at hsymbols ⊢
  split
  · exact .nil
  · exact .t
  · next hnil ht =>
    refine .symbol (.intern henv hword hnumber ?_ hnil ht)
    simpa [symbols] using hsymbols

end Rereadable

end Value

theorem Datum.extends_build {p : Part} (d : Datum p) (env : FrameId) (s : Store) :
    (s.symbols env).Extends ((d.build env s).2.symbols env) := by
  induction d generalizing s with
  | number x | text content | none => exact .refl _
  | symbol name => exact s.extends_intern env name
  | quote d ih => exact (ih s).trans (Store.extends_intern _ env _)
  | list ds ih => exact ih s
  | more d ds ih ih' => exact (ih s).trans (ih' _)

theorem Datum.hasRealm_build {p : Part} (d : Datum p) {env : FrameId} {s : Store}
    (henv : s.realmOf env < s.realms.size) :
    (d.build env s).2.realmOf env < (d.build env s).2.realms.size := by
  have hrealm : (d.build env s).2.realmOf env = s.realmOf env := by
    simp only [Store.realmOf, Store.frame, frames_build]
  rw [hrealm, ((Store.Grown.refl s).build d env).size]
  exact henv

/-- All values of a part. -/
def Part.All (P : Value → Prop) : (p : Part) → p.Result → Prop
  | .form, v => P v
  | .items, vs => ∀ v ∈ vs, P v

/-- What is read as data is read as it is printed. -/
theorem Reads.rereadable {p : Part} {d : Datum p} {source rest : Source} (h : Reads source d rest)
    {env : FrameId} {s : Store} (henv : s.realmOf env < s.realms.size) :
    p.All (Value.Rereadable ((d.build env s).2.symbols env)) (d.build env s).1 := by
  induction h generalizing s with
  | number _ => exact fun hnumbers _ => .number (hnumbers _ (List.mem_singleton.mpr rfl))
  | text _ => exact fun _ _ => .text
  | @symbol _ _ name hnext =>
    obtain ⟨hword, hnumber⟩ := Token.word_of_next hnext
    exact .atom henv hword hnumber
  | @quote _ _ _ d _ _ ih =>
    have hquoted := (ih henv).mono (Store.extends_intern _ env (Keyword.form .quote).spelling)
    refine .addList (List.forall_mem_cons.mpr ⟨?_, List.forall_mem_singleton.mpr hquoted⟩) _
    -- a quoted form is a list that starts with the name of the special form
    have hkeyword := (d.build env s).2.keyword_intern_spelling env (.form .quote)
    rw [← Symbol.atom_of_form hkeyword]
    exact .atom (d.hasRealm_build henv) (.of_all (by decide) (by decide) (by decide)) (by decide)
  | @list _ _ _ ds _ _ ih => exact Value.Rereadable.addList (ih henv) _
  | none _ => exact nofun
  | @more _ _ _ d ds _ _ ih ih' =>
    have hfirst := ih henv
    refine List.forall_mem_cons.mpr ⟨hfirst.mono (ds.extends_build env _), ?_⟩
    exact ih' (d.hasRealm_build henv)

/-- What reading makes of a text prints back to itself: if the numbers in it are finite and its
names settled, its printed form is read, to its end, into an equal value, then and at any later
time. -/
theorem print_of_read {rounds calls rounds' calls' : Nat} {env : FrameId} {source rest : Source}
    {s t u : Store} {v : Value} (henv : s.realmOf env < s.realms.size)
    (h : (run rounds calls).form .data env source s = (.ok (.ok v, rest), t))
    (hnumbers : ∀ x ∈ v.numbers, x.isFinite = true)
    (hsymbols : ∀ symbol ∈ v.symbols, symbol.Settled (s.symbols env).caseRule)
    (hu : (t.symbols env).Extends (u.symbols env)) (hnesting : v.nesting ≤ u.room env)
    (hcalls : v.nesting < calls') :
    ∃ w u', (run rounds' calls').form .data env v.print.toList u = (.ok (.ok w, []), u') ∧
      v.equal w = true := by
  obtain ⟨d, hd, hcalls', hroom⟩ := reads_of_form h
  obtain ⟨-, rfl, rfl⟩ := hd.eq_of_form hcalls' hroom h
  rw [← (d.extends_build env s).caseRule] at hsymbols
  -- the value that was built is readable in the table it leaves, and so at any later time
  have hreadable := hd.rereadable henv hnumbers hsymbols
  generalize (d.build env s).1 = v at *
  have hreads : Reads v.print.toList (v.datum .form) [] := by
    have hwritten :=
      (hreadable.reads fun x hx => Number.readsBack (hnumbers x hx)).1 [] boundary_nil
    rwa [List.append_nil, ← Value.toList_print] at hwritten
  have hread : (run rounds' calls').form .data env v.print.toList u = _ :=
    hreads.dataRead (Nat.le_trans v.calls_datum.1 hcalls) (by rwa [v.nesting_datum.1])
  obtain ⟨⟨hbare, -⟩, -⟩ := hreadable.build hu
  exact ⟨_, _, hread, Value.equal_of_bare hbare.symm hnumbers⟩

/-- A list of a name, a number and a text, read under the upper-case rule. -/
theorem print_of_read_of_three :
    let s := ((Store.empty .empty).addRealm .upper 9).2
    let v : Value := .cons 3 (.symbol ⟨0, 0, "AB", none⟩)
      (.cons 2 (.number 0.5) (.cons 1 (.text 0 "x") .nil))
    ∃ t, (run 0 9).form .data 0 "(ab .50 \"x\")".toList s = (.ok (.ok v, []), t) ∧
      ∃ w u, (run 0 9).form .data 0 v.print.toList t = (.ok (.ok w, []), u) ∧
        v.equal w = true := by
  intro s v
  have henv : s.realmOf 0 < s.realms.size := by decide +kernel
  have hread : ((run 0 9).form .data 0 "(ab .50 \"x\")".toList s).1 = .ok (.ok v, []) := by
    decide +kernel
  have hroom : v.nesting ≤
      ((run 0 9).form .data 0 "(ab .50 \"x\")".toList s).2.room 0 := by decide +kernel
  have hcase : (s.symbols 0).caseRule = .upper := by decide +kernel
  have hsettled : (⟨0, 0, "AB", none⟩ : Symbol).Settled .upper :=
    ⟨by decide +kernel, fun _ => by decide +kernel⟩
  clear_value s
  rcases h : (run 0 9).form .data 0 "(ab .50 \"x\")".toList s with ⟨result, t⟩
  rw [h] at hread hroom
  obtain rfl : result = _ := hread
  refine ⟨t, rfl, print_of_read henv h ?_ ?_ (.refl _) hroom (by decide)⟩
  · exact List.forall_mem_singleton.mpr (by decide +kernel)
  · rw [hcase]
    exact List.forall_mem_singleton.mpr hsettled

/-- In an empty table, a text is read into a value without numbers and lists, and the printed form
of that into another value, up to some rest. -/
structure Changes (rule : CaseRule) (content : String) (v w : Value) (rest : String) : Prop where
  read : ((run 0 9).form .data 0 content.toList ((Store.empty .empty).addRealm rule 9).2).1 =
    .ok (.ok v, [])
  numbers : v.numbers = []
  nesting : v.nesting = 0
  reread : ((run 0 9).form .data 0 v.print.toList
    ((run 0 9).form .data 0 content.toList ((Store.empty .empty).addRealm rule 9).2).2).1 =
      .ok (.ok w, rest.toList)
  ne : v.equal w = false

/-- Under both case rules, a Greek question mark in a name becomes a semicolon, and what is behind
it is not read again.  Upper-casing may give a name that is folded once more. -/
theorem reading_makes_semicolon :
    Changes .preserve "a\u037eb" (.symbol ⟨0, 0, "a;b", none⟩) (.symbol ⟨1, 0, "a", none⟩) ";b" ∧
      Changes .upper "a\u037eb" (.symbol ⟨0, 0, "A;B", none⟩) (.symbol ⟨1, 0, "A", none⟩) ";B" ∧
      Changes .upper "\u0390" (.symbol ⟨0, 0, "\u0399\u0308\u0301", none⟩)
        (.symbol ⟨1, 0, "\u03aa\u0301", none⟩) "" := by
  refine ⟨⟨?_, ?_, ?_, ?_, ?_⟩, ⟨?_, ?_, ?_, ?_, ?_⟩, ⟨?_, ?_, ?_, ?_, ?_⟩⟩
  all_goals decide +kernel

end PocketLisp
