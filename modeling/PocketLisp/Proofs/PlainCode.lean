/-
PocketLisp/Proofs/PlainCode.lean

Code and data are written alike.

A form ends at the same place whether it is read as code or as data
(`form_boundary`): what runs while code is read, expanders and programs that
read on their own, neither moves the place nor takes room for nested lists.

Code is plain where no list in it is headed by a macro or by `defmacro`
(`PlainCode`).  The reader and the expander decide on their own what is code and
what is data, element by element; on plain code both leave everything as it is.

Main result: plain code is read as the data that is written there, and its
expansion prints the same (`plain_code_stays`).
-/
import PocketLisp.Proofs.CodeReading
import PocketLisp.Proofs.NormalForm
import PocketLisp.Proofs.RoundTrip

namespace PocketLisp

/-! ### Where a form ends -/

section Boundary

variable {env env' : FrameId} {rounds rounds' calls calls' : Nat} {s s' t : Store}
  {source rest : Source} {v : Value}

/-- Where a form can be read as code, it can be read as data, in any store with as much room: up to
the same place, whatever the macros in either store are. -/
theorem form_boundary (henv : env < s.frames.size)
    (h : (run rounds calls).form .code env source s = (.ok (.ok v, rest), t))
    (hroom : s.room env ≤ s'.room env') (hcalls : calls ≤ calls') :
    ∃ w t', (run rounds' calls').form .data env' source s' = (.ok (.ok w, rest), t') := by
  obtain ⟨d, hd, hcalls', hroom'⟩ := Mode.MayRead.exists_reads (.inr henv) h
  exact ⟨_, _, hd.dataRead (Nat.le_trans hcalls' hcalls) (Nat.le_trans hroom' hroom)⟩

end Boundary

/-- A macro call is replaced while it is read as code; another store has no such macro. -/
theorem form_boundary_of_call :
    let s := OneMacro.store OneMacro.ignore []
    let s' := ((Store.empty .empty).addRealm .preserve 9).2
    let source := "(f (ignore 5)) g".toList
    let rest := " g".toList
    let v : Value := .cons 3 (.symbol ⟨6, 0, "f", none⟩) (.cons 2 .nil .nil)
    0 < s.frames.size ∧ s.room 0 ≤ s'.room 0 ∧
      ((run 9 9).form .code 0 source s).1 = .ok (.ok v, rest) ∧
      ∃ w t', (run 0 9).form .data 0 source s' = (.ok (.ok w, rest), t') := by
  intro s s' source rest v
  have henv : 0 < s.frames.size := by decide
  have hroom : s.room 0 ≤ s'.room 0 := by decide
  have hcode : ((run 9 9).form .code 0 source s).1 = .ok (.ok v, rest) := by decide +kernel
  clear_value s s' source rest v
  exact ⟨henv, hroom, hcode, form_boundary henv (Prod.ext hcode rfl) hroom (Nat.le_refl 9)⟩

/-! ### Plain code -/

/-- Whether the element at a place of a list behind a head is data: what is quoted, and parameter
lists. -/
def isDataPlace (head : Option Symbol) (place : Nat) : Bool :=
  match head.bind Symbol.keyword with
  | some (.form .quote) => true
  | some (.form .lambda) => place == 1
  | some (.form .defun) => place == 2
  | _ => false

theorem isDataPlace_cases {head : Option Symbol} {place : Nat} (h : isDataPlace head place = true) :
    head.bind Symbol.keyword = some (.form .quote) ∨
      (head.bind Symbol.keyword = some (.form .lambda) ∧ place = 1) ∨
      (head.bind Symbol.keyword = some (.form .defun) ∧ place = 2) := by
  rw [isDataPlace] at h
  split at h
  case h_1 hk => exact .inl hk
  case h_2 hk => exact .inr (.inl ⟨hk, beq_iff_eq.mp h⟩)
  case h_3 hk => exact .inr (.inr ⟨hk, beq_iff_eq.mp h⟩)
  case h_4 => cases h

/-- The reader takes as data what is data. -/
theorem behind_of_isDataPlace {head : Option Symbol} {place : Nat}
    (h : isDataPlace head place = true) : Mode.behind head place = .data := by
  rw [Mode.behind]
  rcases isDataPlace_cases h with hk | ⟨hk, rfl⟩ | ⟨hk, rfl⟩ <;> rw [hk] <;> rfl

/-- The expander leaves alone what is data. -/
theorem lt_of_isDataPlace {head : Option Symbol} {place kept : Nat}
    (h : isDataPlace head place = true) (hkept : keptBehind head = some kept) : place < kept := by
  rw [keptBehind] at hkept
  rcases isDataPlace_cases h with hk | ⟨hk, rfl⟩ | ⟨hk, rfl⟩ <;> rw [hk] at hkept <;> cases hkept
  · exact Nat.lt_succ_self 1
  · exact Nat.lt_succ_self 2

/-- The head of a complete list in code: in the form at the front of a text, or in the elements of
a list behind those `before`.  The form and the list themselves may lack their end. -/
inductive HeadInCode (env : FrameId) (head : Symbol) :
    (before : Option (List Value)) → Source → Store → Prop
  /-- the form is a list; a quoted form is one headed by `quote` -/
  | here {source rest : Source} {s : Store} {d : Datum .form} : Reads source d rest →
      (d.build env s).1.head? = some head → HeadInCode env head none source s
  /-- the list is in the form -/
  | inside {source inner : Source} {s : Store} : Token.next source = (.ok .leftParen, inner) →
      HeadInCode env head (some []) inner s → HeadInCode env head none source s
  /-- the list is in the next element -/
  | element {source : Source} {s : Store} {before : List Value} :
      isDataPlace (before.head?.bind Value.symbol?) before.length = false →
      HeadInCode env head none source s → HeadInCode env head (some before) source s
  /-- the list is behind the next element -/
  | behind {source middle : Source} {s : Store} {before : List Value} {d : Datum .form} :
      Reads source d middle →
      HeadInCode env head (some (before ++ [(d.build env s).1])) middle (d.build env s).2 →
      HeadInCode env head (some before) source s

/-- No list in the code at the front of a text is headed by `defmacro` or by the name of a macro. -/
def PlainCode {α : Type} (macros : Symbol → Option α) (env : FrameId)
    (before : Option (List Value)) (source : Source) (s : Store) : Prop :=
  ∀ head, HeadInCode env head before source s →
    head.is .macroDef = false ∧ macros head = none

section Plain

variable {α : Type} {macros : Symbol → Option α} {env : FrameId} {before : List Value}
  {rounds calls : Nat} {s t : Store} {source inner rest : Source}

/-- Heads do not depend on how deeply reading is nested. -/
theorem HeadInCode.alike {head : Symbol} {before : Option (List Value)}
    (h : HeadInCode env head before source s) (hst : s.Alike t) :
    HeadInCode env head before source t := by
  induction h generalizing t with
  | @here _ _ _ d hd hhead => exact .here hd (by rwa [d.blind_build.result hst])
  | inside hnext _ ih => exact .inside hnext (ih hst)
  | element hplace _ ih => exact .element hplace (ih hst)
  | @behind _ _ _ _ d hd _ ih =>
    refine .behind hd ?_
    rw [d.blind_build.result hst]
    exact ih (d.blind_build.alike hst)

namespace PlainCode

theorem alike {before : Option (List Value)} (h : PlainCode macros env before source s)
    (hst : s.Alike t) : PlainCode macros env before source t :=
  fun head hhead => h head (hhead.alike hst.symm)

theorem inside (h : PlainCode macros env none source s)
    (hnext : Token.next source = (.ok .leftParen, inner)) :
    PlainCode macros env (some []) inner s :=
  fun head hhead => h head (.inside hnext hhead)

theorem element (h : PlainCode macros env (some before) source s)
    (hplace : isDataPlace (before.head?.bind Value.symbol?) before.length = false) :
    PlainCode macros env none source s :=
  fun head hhead => h head (.element hplace hhead)

theorem behind (h : PlainCode macros env (some before) source s) {d : Datum .form}
    (hd : Reads source d rest) :
    PlainCode macros env (some (before ++ [(d.build env s).1])) rest (d.build env s).2 :=
  fun head hhead => h head (.behind hd hhead)

/-- A complete form in plain code is no macro call. -/
theorem isCall (h : PlainCode macros env none source s) {d : Datum .form}
    (hd : Reads source d rest) : (d.build env s).1.isCall macros = false := by
  rw [Value.isCall]
  rcases hhead : (d.build env s).1.head? with - | head
  · rfl
  · rw [Option.bind_some, (h head (.here hd hhead)).2]
    rfl

end PlainCode

/-! ### Reading plain code -/

/-- How a form is read is told by its first token. -/
theorem form_congr {self self' : Recur} {mode mode' : Mode}
    (h : ∀ token inner, Token.next source = (.ok token, inner) →
      self (.parse token mode env inner) s = self' (.parse token mode' env inner) s) :
    self.form mode env source s = self'.form mode' env source s := by
  refine Reading.bind_congr rfl fun token inner t htoken => ?_
  have hnext : Token.next source = (.ok token, inner) := Except.ok.inj (congrArg Prod.fst htoken)
  obtain rfl : s = t := congrArg Prod.snd htoken
  exact h token inner hnext

/-- What ends a list, or fails, does so in every mode. -/
theorem elements_stop (self : Recur) (mode mode' : Mode) (bound : Source) (items : Array Value)
    (h : ∀ token inner, Token.next source = (.ok token, inner) →
      token = .rightParen ∨ token = .endOfInput) :
    Run.Parsing.elements self mode env bound items source s =
      Run.Parsing.elements self mode' env bound items source s := by
  cases bound with
  | nil => rfl
  | cons c bound =>
    refine Reading.bind_congr rfl fun token inner t htoken => ?_
    rcases h token inner (Except.ok.inj (congrArg Prod.fst htoken)) with rfl | rfl <;> rfl

/-- The elements of a list in plain code are read as data is, if forms in plain code are. -/
theorem PlainCode.elements_eq
    (hform : ∀ {source s}, s.Names env macros → PlainCode macros env none source s →
      (run rounds calls).form .code env source s = (run rounds calls).form .data env source s)
    (hs : s.Names env macros) {items : Array Value}
    (h : PlainCode macros env (some items.toList) source s) (bound : Source) :
    Run.Parsing.elements (run rounds calls) .code env bound items source s =
      Run.Parsing.elements (run rounds calls) .data env bound items source s := by
  induction bound generalizing items source s with
  | nil => rfl
  | cons c bound ih =>
    by_cases hstop : ∀ token inner, Token.next source = (.ok token, inner) →
        token = .rightParen ∨ token = .endOfInput
    · exact elements_stop _ _ _ _ _ hstop
    obtain ⟨token, inner, hnext, hne⟩ : ∃ token inner, Token.next source = (.ok token, inner) ∧
        ¬ (token = .rightParen ∨ token = .endOfInput) := by
      simpa only [not_forall, exists_prop] using hstop
    obtain ⟨hclose, hend⟩ := not_or.mp hne
    rw [elements_step _ .code env s hnext hclose hend,
      elements_step _ .data env s hnext hclose hend]
    refine Reading.bind_congr ?_ fun v rest t hread => ?_
    -- the element itself is read as data, or it is plain code
    · cases hmode : Mode.inside .code items with
      | data => rfl
      | code =>
        have hplace : isDataPlace (items[0]?.bind Value.symbol?) items.size = false :=
          Bool.eq_false_iff.mpr fun hdata => nomatch hmode.symm.trans (behind_of_isDataPlace hdata)
        rw [← Array.getElem?_toList, ← List.head?_eq_getElem?, ← Array.length_toList] at hplace
        have heq := hform hs (h.element hplace)
        rwa [form_apply _ _ hnext, form_apply _ _ hnext] at heq
    · have hdata := (form_apply (run rounds calls) .data hnext).trans hread
      obtain ⟨d, hd, hcalls, hroom⟩ := reads_of_form hdata
      obtain ⟨-, rfl, rfl⟩ := hd.eq_of_form hcalls hroom hdata
      have hothers := h.behind hd
      rw [← Array.toList_push] at hothers
      exact ih (hs.of_frames (d.frames_build s)) hothers

/-- A complete list in plain code stands for itself. -/
theorem PlainCode.codeList_eq (self : Recur) (hs : s.Names env macros)
    (h : PlainCode macros env none source s) (hnext : Token.next source = (.ok .leftParen, inner))
    {ds : Datum .items} (hds : Reads inner ds rest) :
    Run.Parsing.codeList self (ds.build env s).1 env (ds.build env s).2 =
      (.ok ((Datum.list ds).build env s).1, ((Datum.list ds).build env s).2) := by
  have hnames : (ds.build env s).2.Names env macros := hs.of_frames (ds.frames_build s)
  have hcall : ((ds.build env s).2.addList (ds.build env s).1).1.isCall
      ((ds.build env s).2.expander? env) = false :=
    (Value.isCall_of_macros hnames _).trans (h.isCall (.list hnext hds))
  rw [Run.Parsing.codeList_apply _ env _ fun symbol hsymbol => ?_, hcall]
  · rfl
  · refine (h symbol (.here (.list hnext hds) ?_)).1
    exact (Store.head?_addList _ _).trans hsymbol

/-- A list in plain code is read as data is, if forms in plain code are. -/
theorem PlainCode.list_eq
    (hform : ∀ {source s}, s.Names env macros → PlainCode macros env none source s →
      (run rounds calls).form .code env source s = (run rounds calls).form .data env source s)
    (hs : s.Names env macros) (h : PlainCode macros env none source s)
    (hnext : Token.next source = (.ok .leftParen, inner)) :
    Run.Parsing.list (run rounds calls) .code env inner s =
      Run.Parsing.list (run rounds calls) .data env inner s := by
  refine Reading.bind_congr rfl fun _ _ _ hget => ?_
  cases hget
  refine Reading.bind_congr (elements_eq hform hs (h.inside hnext) inner)
    fun items rest t hread => ?_
  -- the elements are data, and such a list is neither a call nor a definition
  obtain ⟨ds, hds, hcalls, hroom⟩ := reads_of_elements Mode.MayRead.exists_reads (.inl rfl) hread
  have hitems : DataRead (run rounds calls) env inner s .items _ rest _ :=
    hds.dataRead hcalls hroom
  rw [hitems inner #[] (Nat.le_refl _)] at hread
  cases hread
  refine (Reading.ofRun_apply _ rest _).trans ?_
  rw [Array.toList_empty, List.nil_append, h.codeList_eq _ hs hnext hds]
  rfl

/-- A form in plain code is read as data is: with the same result, from the same part of the text,
and in the same store. -/
theorem PlainCode.form_eq (hs : s.Names env macros) (h : PlainCode macros env none source s) :
    (run rounds calls).form .code env source s = (run rounds calls).form .data env source s := by
  induction calls generalizing source s with
  | zero => exact form_congr fun _ _ _ => rfl
  | succ calls ih =>
    refine form_congr fun token inner hnext => ?_
    cases token with
    | leftParen =>
      -- only a list is read in two ways
      by_cases hdeep : (s.level (s.realmOf env)).HasRoom
      · have hnames : (s.deepen env).Names env macros := hs.of_frames rfl
        have hlist : Run.Parsing.list (run rounds calls) .code env inner (s.deepen env) =
            Run.Parsing.list (run rounds calls) .data env inner (s.deepen env) :=
          list_eq ih hnames (h.alike (Store.alike_deepen s env)) hnext
        rw [Run.run_parse_list hdeep, Run.run_parse_list hdeep, hlist]
      · rw [Run.run_parse_refused hdeep, Run.run_parse_refused hdeep]
    | _ => rfl

/-! ### Expanding plain code -/

/-- What a part of plain code stands for is normal: a form, and those elements of a list behind
`before` that are no data. -/
def NormalPart (macros : Symbol → Option α) (env : FrameId) (source : Source) (s : Store) :
    (p : Part) → p.Result → Prop
  | .form, v => PlainCode macros env none source s → v.Normal macros
  | .items, vs => ∀ before : List Value, PlainCode macros env (some before) source s →
      ∀ place w, vs[place]? = some w →
        isDataPlace ((before ++ vs).head?.bind Value.symbol?) (before.length + place) = false →
          w.Normal macros

/-- No list in plain code is a macro call. -/
theorem Reads.normal {p : Part} {d : Datum p} (h : Reads source d rest) :
    NormalPart macros env source s p (d.build env s).1 := by
  induction h generalizing s with
  | number h | text h => exact fun _ => .atom rfl
  | symbol h => exact fun _ => .atom (Symbol.isCons_atom _)
  | @quote _ _ _ d h hd _ =>
    intro hplain
    refine .data (hplain.isCall (.quote h hd)) ?_
    rw [keptBehind, d.keyword_head?_quote]
  | @list _ _ _ ds h hds ih =>
    intro hplain
    have hcall := hplain.isCall (.list h hds)
    have hcars : ((Datum.list ds).build env s).1.cars = (ds.build env s).1 := Store.cars_addList _ _
    rcases hkept : keptBehind ((Datum.list ds).build env s).1.head? with - | kept
    · exact .data hcall hkept
    · refine .elements hcall hkept fun w hw => ?_
      obtain ⟨i, hi⟩ := List.mem_iff_getElem?.mp hw
      rw [hcars, List.getElem?_drop] at hi
      have hhead : (List.head? (ds.build env s).1).bind Value.symbol? =
          ((Datum.list ds).build env s).1.head? := (Store.head?_addList _ _).symm
      -- a place behind those that expansion leaves alone is no place of data
      refine ih [] (hplain.inside h) (kept + i) w hi ?_
      rw [List.nil_append, List.length_nil, Nat.zero_add]
      exact Bool.eq_false_iff.mpr fun hdata =>
        absurd (lt_of_isDataPlace hdata (hhead ▸ hkept)) (Nat.not_lt.mpr (Nat.le_add_right ..))
  | none h =>
    intro before hplain place w hw
    cases hw
  | @more _ _ _ d ds hd hds ih ih' =>
    intro before hplain place w hw hplace
    have happend : before ++ (d.build env s).1 :: (ds.build env (d.build env s).2).1 =
      before ++ [(d.build env s).1] ++ (ds.build env (d.build env s).2).1 := by simp
    cases place with
    | zero =>
      cases hw
      refine ih (hplain.element ?_)
      -- the first element is code, whatever it is: only then the list has a head
      cases before with
      | nil => rfl
      | cons a before => exact hplace
    | succ place =>
      refine ih' _ (hplain.behind hd) place w hw ?_
      rw [← happend, List.length_append, List.length_singleton, Nat.add_assoc, Nat.add_comm 1]
      exact hplace

/-- The elements of a list are nested less deeply than the list. -/
theorem Value.nesting_lt_of_mem_cars {v w : Value} (h : w ∈ v.cars) : w.nesting < v.nesting := by
  induction v with
  | cons id a d _ ih =>
    rcases List.mem_cons.mp h with rfl | hw
    · exact Nat.lt_of_lt_of_le (Nat.lt_succ_self _) (Nat.le_max_left ..)
    · exact Nat.lt_of_lt_of_le (ih hw) (Nat.le_max_right ..)
  | _ => cases h

/-- Numbers for new objects do not tell how deep the nesting is. -/
theorem Store.riseIn_nextId (h : (s.level (s.realmOf env)).HasRoom) (n : ObjectId) :
    { s.deepen env with nextId := n }.riseIn (s.realmOf env) = { s with nextId := n } :=
  ((Store.blind_of_realms fun _ _ => rfl : Store.Blind fun s => ((), { s with nextId := n })).nested
    h).2

/-- Expansion puts a form of the same content in the place of a form and changes nothing else, in
any store with these macros, if there is room and there are calls for the nesting. -/
def Value.Copied (macros : Symbol → Option α) (env : FrameId) (rounds : Nat) (v : Value) : Prop :=
  ∀ (calls : Nat) (u : Store), u.Names env macros → v.nesting ≤ u.room env → v.nesting < calls →
    ∃ w n, run rounds calls (.expand v env) u = (.ok w, { u with nextId := n }) ∧ w.bare = v.bare

theorem Value.copied_of_atom {v : Value} (hv : v.isCons = false) : v.Copied macros env rounds := by
  intro calls u _ _ hcalls
  obtain ⟨calls, rfl⟩ := Nat.exists_eq_add_one.mpr (Nat.zero_lt_of_lt hcalls)
  exact ⟨v, u.nextId, expand_atom hv u, rfl⟩

/-- A list that is no macro call is copied if the elements are that expansion does not leave
alone. -/
theorem Value.copied_of_elements {v : Value} (hrounds : 0 < rounds)
    (hcall : v.isCall macros = false)
    (h : ∀ kept, keptBehind v.head? = some kept →
      ∀ w ∈ v.cars.drop kept, w.Copied macros env rounds) :
    v.Copied macros env rounds := by
  rcases hcons : v.isCons
  · exact copied_of_atom hcons
  intro calls u hu hroom hcalls
  obtain ⟨calls, rfl⟩ := Nat.exists_eq_add_one.mpr (Nat.zero_lt_of_lt hcalls)
  have hpos : 0 < v.nesting := by
    cases v with
    | cons id a d => exact Nat.lt_of_lt_of_le (Nat.succ_pos _) (Nat.le_max_left ..)
    | _ => cases hcons
  have hdeep : (u.level (u.realmOf env)).HasRoom :=
    Store.hasRoom_iff.mpr (Nat.lt_of_lt_of_le hpos hroom)
  -- while the elements are expanded, one step deeper, the store changes in the next number only
  let I : Store → Prop := fun t => ∃ n, t = { u.deepen env with nextId := n }
  have helement : ∀ kept, keptBehind v.head? = some kept → ∀ w ∈ v.cars.drop kept, ∀ t, I t →
      ∃ w' t', run rounds calls (.expand w env) t = (.ok w', t') ∧ w'.bare = w.bare ∧ I t' := by
    rintro kept hkept w hw _ ⟨n, rfl⟩
    have hnesting := Value.nesting_lt_of_mem_cars (List.mem_of_mem_drop hw)
    have hnames : ({ u.deepen env with nextId := n } : Store).Names env macros := hu.of_frames rfl
    have hroom' : w.nesting ≤ ({ u.deepen env with nextId := n } : Store).room env := by
      have hdeepen := Store.room_deepen hdeep
      have hsame : ({ u.deepen env with nextId := n } : Store).room env = (u.deepen env).room env :=
        rfl
      omega
    obtain ⟨w', n', hrun, hbare⟩ := h kept hkept w hw calls _ hnames hroom' (by omega)
    exact ⟨w', _, hrun, hbare, n', rfl⟩
  obtain ⟨w, t, hrun, hbare, n, rfl⟩ :=
    expand_list (I := I) hcons ((Value.isCall_of_macros hu v).trans hcall) hrounds hdeep
      ⟨_, rfl⟩ (fun _ n ⟨_, ht⟩ => ⟨n, by rw [ht]⟩) helement
  rw [Store.riseIn_nextId hdeep] at hrun
  exact ⟨w, n, hrun, hbare⟩

theorem Value.Normal.copied {v : Value} (h : v.Normal macros) (hrounds : 0 < rounds) :
    v.Copied macros env rounds := by
  induction h with
  | atom hv => exact Value.copied_of_atom hv
  | data hcall hkept =>
    exact Value.copied_of_elements hrounds hcall fun _ hkept' => nomatch hkept.symm.trans hkept'
  | elements hcall hkept _ ih =>
    refine Value.copied_of_elements hrounds hcall fun kept hkept' => ?_
    cases hkept.symm.trans hkept'
    exact ih

/-! ### Checking that code is plain -/

/-- The heads of the lists in the code of a part, which is read behind the elements `before` if it
is the elements of a list. -/
def Datum.codeHeads (env : FrameId) : {p : Part} → Datum p → (before : List Value) → Store →
    List Symbol
  | _, .list ds, _, s => ((Datum.list ds).build env s).1.head?.toList ++ ds.codeHeads env [] s
  | _, .quote d, _, s => ((Datum.quote d).build env s).1.head?.toList
  | _, .more d ds, before, s =>
    (if isDataPlace (before.head?.bind Value.symbol?) before.length then []
      else d.codeHeads env [] s) ++
      ds.codeHeads env (before ++ [(d.build env s).1]) (d.build env s).2
  | _, .number _, _, _ | _, .text _, _, _ | _, .symbol _, _, _ | _, .none, _, _ => []

theorem Symbol.head?_atom (symbol : Symbol) : symbol.atom.head? = none := by
  rw [Symbol.atom]
  split <;> rfl

theorem HeadInCode.not_rightParen {head : Symbol} (h : HeadInCode env head none source s) :
    Token.next source ≠ (.ok .rightParen, inner) := by
  cases h with
  | here hd => exact hd.not_rightParen
  | inside hnext =>
    rw [hnext]
    nofun

/-- In a form that is complete, the heads in code can be listed. -/
theorem HeadInCode.mem_codeHeads {head : Symbol} {before : Option (List Value)}
    (h : HeadInCode env head before source s) :
    match before with
    | none => ∀ {d : Datum .form} {rest}, Reads source d rest → head ∈ d.codeHeads env [] s
    | some before => ∀ {ds : Datum .items} {rest}, Reads source ds rest →
        head ∈ ds.codeHeads env before s := by
  -- the places of a head: the form itself, or somewhere among a list's elements
  induction h with
  | @here _ _ s d hd hhead =>
    intro d' _ hd'
    obtain ⟨rfl, -⟩ := hd.unique hd'
    cases d with
    | number x | text content => cases hhead
    | symbol name => cases (Symbol.head?_atom _).symm.trans hhead
    | quote d => exact Option.mem_toList.mpr hhead
    | list ds => exact List.mem_append_left _ (Option.mem_toList.mpr hhead)
  | inside hnext _ ih =>
    intro d _ hd
    cases hd with
    | list hopen hds =>
      cases hnext.symm.trans hopen
      exact List.mem_append_right _ (ih hds)
    | number h | text h | symbol h | quote h => cases hnext.symm.trans h
  | element hplace hhead ih =>
    intro ds _ hds
    cases hds with
    | none hclose => exact absurd hclose hhead.not_rightParen
    | more hd hds =>
      rw [Datum.codeHeads, if_neg (Bool.eq_false_iff.mp hplace)]
      exact List.mem_append_left _ (ih hd)
  | behind hd _ ih =>
    intro ds _ hds
    cases hds with
    | none hclose => exact absurd hclose hd.not_rightParen
    | more hd' hds =>
      obtain ⟨rfl, rfl⟩ := hd.unique hd'
      exact List.mem_append_right _ (ih hds)

/-- A form is plain code if all heads in its code are checked to be. -/
theorem PlainCode.of_codeHeads {d : Datum .form} (hd : Reads source d rest)
    (h : ∀ head ∈ d.codeHeads env [] s, head.is .macroDef = false ∧ macros head = none) :
    PlainCode macros env none source s :=
  fun head hhead => h head (hhead.mem_codeHeads hd)

end Plain

/-- Plain code is read as data is: with the same result, from the same part of the text, and in the
same store.  Reading it changes no frame, and expanding what is read gives a form that prints the
same, and makes new objects only, wherever these macros and room for the nesting are. -/
theorem plain_code_stays {env : FrameId} {source : Source} {s : Store}
    (hplain : PlainCode (s.expander? env) env none source s) (rounds calls : Nat) :
    (run rounds calls).form .code env source s = (run rounds calls).form .data env source s ∧
      ∀ {v rest t}, (run rounds calls).form .code env source s = (.ok (.ok v, rest), t) →
        t.frames = s.frames ∧ ∀ {u : Store} {rounds' calls' : Nat}, u.Names env (s.expander? env) →
          v.nesting ≤ u.room env → 0 < rounds' → v.nesting < calls' →
            ∃ w n, run rounds' calls' (.expand v env) u = (.ok w, { u with nextId := n }) ∧
              w.print = v.print := by
  have hsame : (run rounds calls).form .code env source s = _ := hplain.form_eq fun _ => rfl
  refine ⟨hsame, fun h => ?_⟩
  rw [hsame] at h
  obtain ⟨d, hd, hcalls, hroom⟩ := reads_of_form h
  obtain ⟨-, rfl, rfl⟩ := hd.eq_of_form hcalls hroom h
  have hnormal : Value.Normal (s.expander? env) (d.build env s).1 := hd.normal hplain
  refine ⟨d.frames_build s, fun hu hroom' hrounds hcalls' => ?_⟩
  obtain ⟨w, n, hrun, hbare⟩ := hnormal.copied hrounds _ _ hu hroom' hcalls'
  exact ⟨w, n, hrun, by rw [← Value.print_bare w, hbare, Value.print_bare]⟩

/-- The name of a macro heads a parameter list and a quoted list: both are left alone. -/
theorem plain_code_stays_of_quoted_call :
    let s := OneMacro.store OneMacro.ignore []
    let source := "(lambda (ignore) '(ignore 5))".toList
    let ignore : Value := .symbol OneMacro.ignore
    let quoted : Value := .cons 4 (.symbol OneMacro.quote)
      (.cons 3 (.cons 2 ignore (.cons 1 (.number 5) .nil)) .nil)
    let v : Value := .cons 7 (.symbol ⟨6, 0, "lambda", some (.form .lambda)⟩)
      (.cons 6 (.cons 0 ignore .nil) (.cons 5 quoted .nil))
    PlainCode (s.expander? 0) 0 none source s ∧
      (run 9 9).form .code 0 source s = (run 9 9).form .data 0 source s ∧
      ∃ t, (run 9 9).form .code 0 source s = (.ok (.ok v, []), t) ∧ t.frames = s.frames ∧
        t.Names 0 (s.expander? 0) ∧ v.nesting ≤ t.room 0 ∧
        ∃ w n, run 9 9 (.expand v 0) t = (.ok w, { t with nextId := n }) ∧ w.print = v.print := by
  intro s source ignore quoted v
  have hread : Reads source (.list (.more (.symbol "lambda") (.more
      (.list (.more (.symbol "ignore") .none)) (.more
        (.quote (.list (.more (.symbol "ignore") (.more (.number 5) .none)))) .none)))) [] :=
    .list rfl (.more (.symbol rfl) (.more (.list rfl (.more (.symbol rfl) (.none rfl)))
      (.more (.quote rfl (.list rfl (.more (.symbol rfl) (.more (.number rfl) (.none rfl)))))
        (.none rfl))))
  have hplain : PlainCode (s.expander? 0) 0 none source s := .of_codeHeads hread (by decide +kernel)
  have hresult : ((run 9 9).form .code 0 source s).1 = .ok (.ok v, []) := by decide +kernel
  have hroom : v.nesting ≤ ((run 9 9).form .code 0 source s).2.room 0 := by decide +kernel
  have hcalls : v.nesting < 9 := by decide
  clear_value s source v
  obtain ⟨hsame, hstays⟩ := plain_code_stays hplain 9 9
  have hcode : (run 9 9).form .code 0 source s = (.ok (.ok v, []), _) := Prod.ext hresult rfl
  obtain ⟨hframes, hexpand⟩ := hstays hcode
  have hnames : Store.Names _ 0 (s.expander? 0) := .of_frames (fun _ => rfl) hframes
  exact ⟨hplain, hsame, _, hcode, hframes, hnames, hroom,
    hexpand hnames hroom (Nat.succ_pos 8) hcalls⟩

end PocketLisp
