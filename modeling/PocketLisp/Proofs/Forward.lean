/-
PocketLisp/Proofs/Forward.lean

Readings go forward.

A reading takes characters from the front of its text, and what it leaves is
the end of that text, whether it succeeds or fails.  It does not end in any
other way, except unfinished: a fault of what is done on the way is the result
of the reading (`Reading.Forward`).  All readings of the interpreter are of
this kind (`run_forward`).
-/
import PocketLisp.Proofs.Steps

namespace PocketLisp

/-! ### Tokens -/

theorem Source.skipFrom_suffix (inComment : Bool) (cs : Source) : skipFrom inComment cs <:+ cs := by
  induction cs generalizing inComment with
  | nil => exact List.suffix_refl _
  | cons c cs ih =>
    rw [skipFrom]
    split
    · exact (ih _).trans (List.suffix_cons _ _)
    · split
      · exact (ih _).trans (List.suffix_cons _ _)
      · split
        · exact (ih _).trans (List.suffix_cons _ _)
        · exact List.suffix_refl _

theorem Source.skip_suffix (cs : Source) : cs.skip <:+ cs := skipFrom_suffix false cs

namespace Token

theorem takeText_suffix {collected content : List Char} {cs rest : Source}
    (h : takeText collected cs = some (content, rest)) : rest <:+ cs := by
  induction collected, cs using takeText.induct with
  | case1 collected => cases h
  | case2 collected cs =>
    cases h
    exact List.suffix_cons _ _
  | case3 collected => cases h
  | case4 collected c cs ih =>
    rw [takeText] at h
    exact (ih h).trans ((List.suffix_cons _ _).trans (List.suffix_cons _ _))
  | case5 collected c cs hquote hend hescape ih =>
    rw [takeText.eq_5 collected c cs hquote hend hescape] at h
    exact (ih h).trans (List.suffix_cons _ _)

theorem next_suffix (cs : Source) : (next cs).2 <:+ cs := by
  refine List.IsSuffix.trans ?_ cs.skip_suffix
  rw [next]
  generalize cs.skip = ds
  fun_cases take ds with
  | case1 => exact List.suffix_refl _
  | case2 ds | case3 ds | case4 ds => exact List.suffix_cons _ _
  | case5 ds content rest htake => exact (takeText_suffix htake).trans (List.suffix_cons _ _)
  | case6 ds htake => exact List.nil_suffix
  | case7 c ds => exact List.dropWhile_suffix _

end Token

/-! ### Readings -/

namespace Reading

variable {α β : Type}

/-- How a reading may end: with the end of its text left, or unfinished. -/
def EndsIn (source : Source) : Except Stop (Except Fault α × Source) → Prop
  | .ok (_, rest) => rest <:+ source
  | .error e => e = .unfinished

/-- What is left of the text is its end, and no fault is left to those who asked for the reading. -/
def Forward (m : Reading α) : Prop := ∀ source s, EndsIn source (m source s).1

namespace Forward

variable {m : Reading α} {k : α → Reading β}

protected theorem pure (a : α) : Forward (pure a : Reading α) := fun _ _ => List.suffix_refl _

protected theorem throw (f : Fault) : Forward (throw f : Reading α) :=
  fun _ _ => List.suffix_refl _

protected theorem token : Forward Reading.token := fun source _ => Token.next_suffix source

protected theorem get : Forward (MonadState.get : Reading Source) :=
  fun _ _ => List.suffix_refl _

protected theorem ofRun (body : Run α) : Forward (Reading.ofRun body) := by
  intro source s
  rw [ofRun_apply]
  rcases body s with ⟨(f | _) | a, t⟩
  · exact List.suffix_refl _
  · rfl
  · exact List.suffix_refl _

protected theorem bind (hm : Forward m) (hk : ∀ a, Forward (k a)) : Forward (m >>= k) := by
  intro source s
  have hfirst := hm source s
  rcases hms : m source s with ⟨e | ⟨f | a, middle⟩, t⟩ <;> rw [hms] at hfirst
  · rwa [bind_apply_stop hms]
  · rwa [bind_apply_fault hms]
  · rw [bind_apply_ok hms]
    have hrest := hk a middle t
    rcases hkt : k a middle t with ⟨e | ⟨x, rest⟩, u⟩ <;> rw [hkt] at hrest
    · exact hrest
    · exact hrest.trans hfirst

end Forward

end Reading

/-! ### The reader -/

open Reading

/-- Forms whose first token has been taken are read forward. -/
def Recur.Forward (self : Recur) : Prop :=
  ∀ token mode global, Reading.Forward (self.parse token mode global)

section Reader

variable {self : Recur} (h : self.Forward)
include h

theorem form_forward (mode : Mode) (global : FrameId) :
    Reading.Forward (self.form mode global) :=
  Forward.token.bind fun _ => h _ _ _

theorem elements_forward (mode : Mode) (global : FrameId) (bound : Source) (items : Array Value) :
    Reading.Forward (Run.Parsing.elements self mode global bound items) := by
  induction bound generalizing items with
  | nil => exact Forward.throw _
  | cons c bound ih =>
    have hmore : ∀ token, Reading.Forward (self.parse token (mode.inside items) global >>= fun v =>
        Run.Parsing.elements self mode global bound (items.push v)) :=
      fun token => (h token _ global).bind fun v => ih (items.push v)
    refine Forward.token.bind fun token => ?_
    cases token with
    | rightParen => exact Forward.pure _
    | endOfInput => exact Forward.throw _
    | _ => exact hmore _

theorem list_forward (mode : Mode) (global : FrameId) :
    Reading.Forward (Run.Parsing.list self mode global) := by
  refine Forward.get.bind fun source => ?_
  refine (elements_forward h mode global source #[]).bind fun items => ?_
  cases mode with
  | data | code => exact Forward.ofRun _

theorem parsing_forward (token : Token) (mode : Mode) (global : FrameId) :
    Reading.Forward (Run.Parsing.form self token mode global) := by
  cases token with
  | endOfInput | rightParen => exact Forward.throw _
  | leftParen => exact list_forward h mode global
  | quote => exact (form_forward h .data global).bind fun v => Forward.ofRun _
  | number x => exact Forward.pure _
  | text content | symbol name => exact Forward.ofRun _

end Reader

/-- A nested step that is refused takes nothing from the text. -/
theorem run_forward (rounds calls : Nat) : (run rounds calls).Forward := by
  induction calls with
  | zero => exact fun _ _ _ _ _ => rfl
  | succ calls ih =>
    intro token mode global source s
    have hbody := parsing_forward ih token mode global source
    have hrun : (run rounds (calls + 1)).parse token mode global source s =
      (Call.parse token mode global source).nested
        (Run.Parsing.form (run rounds calls) token mode global source) s := rfl
    rw [hrun]
    unfold Call.nested
    split
    · exact hbody s
    · next env _ =>
      -- without room nothing is read, so the whole source is left
      split
      · exact List.suffix_refl _
      · exact hbody (s.deepen env)

end PocketLisp
