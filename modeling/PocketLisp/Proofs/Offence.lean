/-
PocketLisp/Proofs/Offence.lean

What reading as data does with every text, also with one that is no datum.

`offence?` walks over the tokens of a text with a counter of the open lists and
finds the first token that cannot stand where it does.  The reader descends
into lists and quoted forms instead; the two are compared by what is left of a
text behind a part that is complete (`offence?_of_reads`).

Main result: reading ends with the value of a datum exactly where the text
starts with one that there is room for, and else with the fault of the first
offending token (`read_or_offence`).
-/
import PocketLisp.Proofs.Splitting

namespace PocketLisp

/-! ### The first offending token -/

/-- The fault of the first token that cannot stand where it does, and the text behind that token;
`none` where the text starts with a form.  So many lists are `opened`; a form is `due` at the
beginning and behind a quote mark, while further inside a list it may be closed as well. -/
def offence? (room limit : Nat) (opened : Nat) (due : Bool) (source : Source) :
    Option (Fault × Source) :=
  match _h : Token.next source with
  | (.error _, rest) => some (.unexpectedEnd, rest)
  | (.ok .endOfInput, rest) => some (.unexpectedEnd, rest)
  | (.ok .rightParen, rest) =>
    if due then some (.extraneousClose, rest)
    else if opened ≤ 1 then none
    else offence? room limit (opened - 1) false rest
  | (.ok .leftParen, rest) =>
    if opened < room then offence? room limit (opened + 1) false rest
    else some (.stackExhausted limit, rest)
  | (.ok .quote, rest) => offence? room limit opened true rest
  | (.ok (.number _), rest) | (.ok (.text _), rest) | (.ok (.symbol _), rest) =>
    if opened = 0 then none else offence? room limit opened false rest
termination_by source.length
decreasing_by all_goals exact Token.length_next_lt _h nofun

/-- What the walk finds behind a complete form; the text starts with a form if this form is in no
list. -/
def offenceBehind? (room limit : Nat) (opened : Nat) (source : Source) : Option (Fault × Source) :=
  if opened = 0 then none else offence? room limit opened false source

/-- How many parentheses a part closes that it does not open. -/
def Part.closes : Part → Nat
  | .form => 0
  | .items => 1

/-- Whether a part may stand where a form is due, or where none is. -/
def Part.Fits : Part → (due : Bool) → Prop
  | .form, _ => True
  | .items, due => due = false

/-- Whether a form is due where a part is read. -/
def Part.due : Part → Bool
  | .form => true
  | .items => false

section Walk

variable {room limit opened : Nat} {due : Bool} {source rest : Source}

/-- The walk takes one token and goes on behind it. -/
theorem offence?_step (room limit opened : Nat) (due : Bool) (source : Source) :
    offence? room limit opened due source =
      match Token.next source with
      | (.error _, rest) => some (.unexpectedEnd, rest)
      | (.ok .endOfInput, rest) => some (.unexpectedEnd, rest)
      | (.ok .rightParen, rest) =>
        if due then some (.extraneousClose, rest) else offenceBehind? room limit (opened - 1) rest
      | (.ok .leftParen, rest) =>
        if opened < room then offence? room limit (opened + 1) false rest
        else some (.stackExhausted limit, rest)
      | (.ok .quote, rest) => offence? room limit opened true rest
      | (.ok (.number _), rest) | (.ok (.text _), rest) | (.ok (.symbol _), rest) =>
        offenceBehind? room limit opened rest := by
  rw [offence?]
  split <;> simp_all [offenceBehind?, Nat.sub_eq_zero_iff_le]

/-- The walk passes over a complete part with all its lists. -/
theorem offence?_of_reads {p : Part} {d : Datum p} (h : Reads source d rest) (hdue : p.Fits due)
    (hroom : opened + p.closes + d.nesting ≤ room) :
    offence? room limit (opened + p.closes) due source = offenceBehind? room limit opened rest := by
  induction h generalizing opened due with
  | number h | text h | symbol h =>
    -- an atom is passed over, and so is a quote mark
    rw [offence?_step, h]
    rfl
  | quote h _ ih =>
    rw [offence?_step, h]
    exact ih trivial hroom
  | @list _ inner _ ds h _ ih =>
    -- there is room for the list, as there is for what is in it
    have hinner : opened + Part.items.closes + ds.nesting ≤ room := by
      simp only [Datum.nesting, Part.closes] at hroom ⊢
      omega
    have hlt : opened < room :=
      Nat.lt_of_lt_of_le (Nat.lt_add_one _) (Nat.le_trans (Nat.le_add_right ..) hinner)
    rw [offence?_step, h]
    exact (if_pos hlt).trans (ih rfl hinner)
  | none h =>
    -- the closing parenthesis is due
    cases hdue
    rw [offence?_step, h]
    rfl
  | @more _ inner _ d ds _ _ ih ih' =>
    -- the first element is passed over, and then the others
    cases hdue
    simp only [Datum.nesting, Part.closes] at hroom ih'
    have hfirst := @ih (opened + 1) false trivial
      (Nat.le_trans (Nat.add_le_add_left (Nat.le_max_left ..) _) hroom)
    refine hfirst.trans ?_
    exact ih' rfl (Nat.le_trans (Nat.add_le_add_left (Nat.le_max_right ..) _) hroom)

/-- Only a closing parenthesis makes a difference to whether a form is due. -/
theorem offence?_due {token : Token} (h : Token.next source = (.ok token, rest))
    (hclose : token ≠ .rightParen) :
    offence? room limit opened due source = offence? room limit opened true source := by
  rw [offence?_step, offence?_step, h]
  cases token with
  | rightParen => exact absurd rfl hclose
  | _ => rfl

end Walk

/-! ### Reading follows the walk -/

/-- So many lists may be open at the same time in the realm of a frame. -/
def Store.limit (s : Store) (env : FrameId) : Nat := (s.level (s.realmOf env)).limit

theorem Store.limit_deepen {s : Store} {env : FrameId}
    (h : (s.level (s.realmOf env)).HasRoom) : (s.deepen env).limit env = s.limit env := by
  have hrealm : (s.deepen env).realmOf env = s.realmOf env := rfl
  simp only [limit, hrealm, level_deepen h, raise, if_true]

/-- Building data does not change the limit. -/
theorem Datum.limit_build {p : Part} {env : FrameId} (d : Datum p) (s : Store) :
    (d.build env s).2.limit env = s.limit env := by
  have hrealm : (d.build env s).2.realmOf env = s.realmOf env := by
    simp only [Store.realmOf, Store.frame, frames_build]
  simp only [Store.limit, hrealm, d.blind_build.level]

/-- A call for every character of a datum is enough. -/
theorem Reads.calls_le {p : Part} {d : Datum p} {source rest : Source} (h : Reads source d rest) :
    d.calls + rest.length ≤ source.length := by
  induction h with
  | number h | text h | symbol h | none h =>
    have hlt := Token.length_next_lt h nofun
    simp only [Datum.calls]
    omega
  | quote h _ ih | list h _ ih =>
    have hlt := Token.length_next_lt h nofun
    simp only [Datum.calls]
    omega
  | more hd hds ih ih' =>
    have hlt := hd.length_lt
    have hlt' := hds.length_lt
    simp only [Datum.calls]
    omega

/-- Reading a part as data ends with this fault, and this is left. -/
def DataRefused (self : Recur) (env : FrameId) (source : Source) (s : Store) :
    (p : Part) → Fault → Source → Prop
  | .form, f, rest => ∃ t, self.form .data env source s = (.ok (.error f, rest), t)
  | .items, f, rest => ∀ (bound : Source) (items : Array Value), source.length ≤ bound.length →
      ∃ t, Run.Parsing.elements self .data env bound items source s = (.ok (.error f, rest), t)

/-- There is a part to read, with room for it, or reading ends with what the walk finds, whatever
lists are open around the part. -/
def ReadsOrOffends (self : Recur) (env : FrameId) (source : Source) (s : Store) (p : Part) : Prop :=
  (∃ (d : Datum p) (rest : Source), Reads source d rest ∧ d.nesting ≤ s.room env) ∨
    ∃ f rest, DataRefused self env source s p f rest ∧ ∀ opened,
      offence? (opened + p.closes + s.room env) (s.limit env) (opened + p.closes) p.due source =
        some (f, rest)

section Reading

variable {source : Source} {env : FrameId} {rounds calls : Nat} {s : Store}

/-- If reading forms follows the walk, reading the elements of a list does. -/
theorem elements_follow
    (hform : ∀ {source s}, source.length < calls →
      ReadsOrOffends (run rounds calls) env source s .form)
    (hcalls : source.length < calls) : ReadsOrOffends (run rounds calls) env source s .items := by
  -- on the length of the text: the others stand behind the first element
  induction hlength : source.length using Nat.strongRecOn generalizing source s with
  | ind n ih =>
    subst hlength
    rcases hnext : Token.next source with ⟨_ | token, inner⟩
    · -- the text ends within a token
      refine .inr ⟨.unexpectedEnd, inner, fun bound items hbound => ?_, fun opened => ?_⟩
      · obtain rfl := Token.next_error hnext
        rcases bound with - | ⟨c, bound⟩
        · rw [List.eq_nil_of_length_eq_zero (Nat.le_zero.mp hbound)] at hnext
          cases hnext
        · exact ⟨s, Reading.bind_apply_fault (Reading.token_of_next hnext s)⟩
      · rw [offence?_step, hnext]
    -- the list is closed
    by_cases hclose : token = .rightParen
    · exact .inl ⟨.none, inner, .none (hclose ▸ hnext), Nat.zero_le _⟩
    -- the text ends, but the list does not
    by_cases hend : token = .endOfInput
    · subst hend
      refine .inr ⟨.unexpectedEnd, inner, fun bound items hbound => ?_, fun opened => ?_⟩
      · rcases bound with - | ⟨c, bound⟩
        · rw [List.eq_nil_of_length_eq_zero (Nat.le_zero.mp hbound)] at hnext ⊢
          cases hnext
          exact ⟨s, rfl⟩
        · exact ⟨s, (Reading.bind_apply_ok (Reading.token_of_next hnext s)).trans rfl⟩
      · rw [offence?_step, hnext]
    -- any other token starts an element
    rcases hform hcalls (s := s) with ⟨d, middle, hd, hroom⟩ | ⟨f, rest, ⟨t, hrefused⟩, hoffence⟩
    · -- the first element is read: the offence is among the others, if there is one
      have hlt := hd.length_lt
      have hothers : ReadsOrOffends (run rounds calls) env middle (d.build env s).2 .items :=
        ih middle.length hlt (by omega) rfl
      rcases hothers with ⟨ds, rest, hds, hroom'⟩ | ⟨f, rest, hrefused, hoffence⟩
      · rw [Datum.room_build] at hroom'
        exact .inl ⟨.more d ds, rest, .more hd hds, Nat.max_le.mpr ⟨hroom, hroom'⟩⟩
      · refine .inr ⟨f, rest, fun bound items hbound => ?_, fun opened => ?_⟩
        · obtain ⟨bound', hbound', heq⟩ :=
            elements_more .data env s hnext hclose hend hbound items
          have hle := hd.calls_le
          have hfirst : (run rounds calls).form .data env source s = _ :=
            hd.dataRead (by omega) hroom
          rw [form_apply _ _ hnext] at hfirst
          obtain ⟨t, hothers⟩ := hrefused bound' (items.push (d.build env s).1) (by omega)
          exact ⟨t, (heq _).trans ((Reading.bind_apply_ok hfirst).trans hothers)⟩
        · rw [Datum.room_build, Datum.limit_build] at hoffence
          have hpassed : offence? _ (s.limit env) (opened + 1 + Part.form.closes) false
              source = _ := offence?_of_reads hd trivial (Nat.add_le_add_left hroom _)
          exact hpassed.trans (hoffence opened)
    · -- the first element is refused, and the list with it
      refine .inr ⟨f, rest, fun bound items hbound => ?_, fun opened => ?_⟩
      · obtain ⟨bound', -, heq⟩ :=
          elements_more .data env s hnext hclose hend hbound items
        rw [form_apply _ _ hnext] at hrefused
        exact ⟨t, (heq _).trans (Reading.bind_apply_fault hrefused)⟩
      · exact (offence?_due hnext hclose).trans (hoffence (opened + 1))

/-- If reading its elements one step deeper follows the walk, reading a list does. -/
theorem list_follows {inner : Source} (hopen : Token.next source = (.ok .leftParen, inner))
    (hitems : ReadsOrOffends (run rounds calls) env inner (s.deepen env) .items) :
    ReadsOrOffends (run rounds (calls + 1)) env source s .form := by
  have hread : (run rounds (calls + 1)).form .data env source s = _ := form_apply _ .data hopen
  -- a list is a nested step: there is room for it or not
  by_cases hdeep : (s.level (s.realmOf env)).HasRoom
  · have hpos := Store.hasRoom_iff.mp hdeep
    rcases hitems with ⟨ds, rest, hds, hroom⟩ | ⟨f, rest, hrefused, hoffence⟩
    · -- all elements are read: the list is nested one step deeper than they are
      rw [Store.room_deepen hdeep] at hroom
      refine .inl ⟨.list ds, rest, .list hopen hds, ?_⟩
      simp only [Datum.nesting]
      omega
    · -- an element is refused, after the room that the list takes has been found
      obtain ⟨t, helements⟩ := hrefused inner #[] (Nat.le_refl _)
      have hlist : Run.Parsing.list (run rounds calls) .data env inner (s.deepen env) =
          (.ok (.error f, rest), t) :=
        (Reading.bind_apply_ok rfl).trans (Reading.bind_apply_fault helements)
      refine .inr ⟨f, rest, ⟨t.riseIn (s.realmOf env), ?_⟩, fun opened => ?_⟩
      · refine hread.trans ?_
        rw [Run.run_parse_list hdeep, hlist]
      · have hlt : opened + Part.form.closes < opened + Part.form.closes + s.room env := by
          omega
        rw [offence?_step, hopen]
        refine (if_pos hlt).trans ?_
        rw [← hoffence opened, Store.limit_deepen hdeep, Store.room_deepen hdeep]
        congr 1
        simp only [Part.closes]
        omega
  · -- the parenthesis itself offends
    refine .inr ⟨.stackExhausted (s.limit env), inner, ⟨s, ?_⟩, fun opened => ?_⟩
    · exact hread.trans (Run.run_parse_refused hdeep)
    · have hroom : s.room env = 0 :=
        Nat.eq_zero_of_not_pos fun h => hdeep (Store.hasRoom_iff.mpr h)
      rw [offence?_step, hopen, hroom]
      exact if_neg (Nat.lt_irrefl _)

/-- Reading a form follows the walk, if there are calls enough. -/
theorem form_follows (hcalls : source.length < calls) :
    ReadsOrOffends (run rounds calls) env source s .form := by
  -- on the calls: each of them takes a character of the text at least
  induction calls generalizing source s with
  | zero => exact absurd hcalls (Nat.not_lt_zero _)
  | succ calls ih =>
    rcases hnext : Token.next source with ⟨_ | token, inner⟩
    · -- the text ends within a token
      obtain rfl := Token.next_error hnext
      refine .inr ⟨.unexpectedEnd, inner, ⟨s, ?_⟩, fun opened => ?_⟩
      · exact Reading.bind_apply_fault (Reading.token_of_next hnext s)
      · rw [offence?_step, hnext]
    · have hread : (run rounds (calls + 1)).form .data env source s = _ :=
        form_apply _ .data hnext
      cases token with
      -- atoms are read
      | number x => exact .inl ⟨_, _, .number hnext, Nat.zero_le _⟩
      | text content => exact .inl ⟨_, _, .text hnext, Nat.zero_le _⟩
      | symbol name => exact .inl ⟨_, _, .symbol hnext, Nat.zero_le _⟩
      | endOfInput =>
        -- no form is left
        refine .inr ⟨.unexpectedEnd, inner, ⟨s, hread.trans rfl⟩, fun opened => ?_⟩
        rw [offence?_step, hnext]
      | rightParen =>
        -- nothing is open that could be closed
        refine .inr ⟨.extraneousClose, inner, ⟨s, hread.trans rfl⟩, fun opened => ?_⟩
        rw [offence?_step, hnext]
        rfl
      | quote =>
        -- the form behind the quote mark is read or refused
        have hlt := Token.length_next_lt hnext nofun
        have hquoted : ReadsOrOffends (run rounds calls) env inner s .form := ih (by omega)
        rcases hquoted with ⟨d, rest, hd, hroom⟩ | ⟨f, rest, ⟨t, hrefused⟩, hoffence⟩
        · exact .inl ⟨.quote d, rest, .quote hnext hd, hroom⟩
        · refine .inr ⟨f, rest, ⟨t, ?_⟩, fun opened => ?_⟩
          · exact (hread.trans (Run.run_parse (by simp) ..)).trans
              (Reading.bind_apply_fault hrefused)
          · rw [offence?_step, hnext]
            exact hoffence opened
      | leftParen =>
        have hlt := Token.length_next_lt hnext nofun
        exact list_follows hnext (elements_follow ih (by omega))

end Reading

/-! ### What is read, and what is refused -/

section Outcome

variable {env : FrameId} {rounds calls : Nat}

end Outcome

end PocketLisp
