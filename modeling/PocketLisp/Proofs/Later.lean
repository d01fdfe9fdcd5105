/-
PocketLisp/Proofs/Later.lean

Frames stay where they are.

No operation removes a frame, moves it in its chain or takes a macro from it
(`Store.Later`), so no run does (`run_later`).  Every run gives back the nested
steps that it takes (`run_level`).  So there is as much room for nested steps in
a frame after a call as before it (`room_of_run`).
-/
import PocketLisp.Proofs.Composition
import PocketLisp.Proofs.Heap
import PocketLisp.Proofs.RunLockstep

namespace PocketLisp

variable {α : Type}

/-! ### Frames that stay -/

namespace Store

/-- Every frame of the first store is still there in the second, at its place in the chain, and has
lost no macro. -/
structure Later (s t : Store) : Prop where
  size : s.frames.size ≤ t.frames.size
  frames : ∀ {i : Nat} {f : Frame}, s.frames[i]? = some f → ∃ f', t.frames[i]? = some f' ∧
    f'.outer = f.outer ∧ f'.realm = f.realm ∧
    ∀ symbol, (f.expanders.get? symbol).isSome → (f'.expanders.get? symbol).isSome

namespace Later

variable {s t u : Store}

theorem refl (s : Store) : s.Later s := ⟨Nat.le_refl _, fun h => ⟨_, h, rfl, rfl, fun _ => id⟩⟩

theorem trans (h : s.Later t) (h' : t.Later u) : s.Later u := by
  refine ⟨Nat.le_trans h.size h'.size, fun {i f} hf => ?_⟩
  obtain ⟨f', hf', houter, hrealm, hexpanders⟩ := h.frames hf
  obtain ⟨f'', hf'', houter', hrealm', hexpanders'⟩ := h'.frames hf'
  exact ⟨f'', hf'', houter'.trans houter, hrealm'.trans hrealm,
    fun symbol hs => hexpanders' symbol (hexpanders symbol hs)⟩

theorem of_frames (h : t.frames = s.frames) : s.Later t := by
  refine ⟨Nat.le_of_eq (congrArg Array.size h).symm, fun {i f} hf => ?_⟩
  exact ⟨f, h ▸ hf, rfl, rfl, fun _ => id⟩

/-- A frame may change in anything but its place, if it loses no macro. -/
theorem modify_frames (s : Store) (i : FrameId) {g : Frame → Frame}
    (houter : ∀ f, (g f).outer = f.outer) (hrealm : ∀ f, (g f).realm = f.realm)
    (hexpanders : ∀ f symbol, (f.expanders.get? symbol).isSome →
      ((g f).expanders.get? symbol).isSome) :
    s.Later { s with frames := s.frames.modify i g } := by
  refine ⟨Nat.le_of_eq Array.size_modify.symm, fun {j f} hf => ?_⟩
  show ∃ f', (s.frames.modify i g)[j]? = some f' ∧ _
  rw [Array.getElem?_modify, hf]
  split
  · exact ⟨g f, rfl, houter f, hrealm f, hexpanders f⟩
  · exact ⟨f, rfl, rfl, rfl, fun _ => id⟩

theorem extend (s : Store) (env : FrameId) : s.Later (s.extend env).2 := by
  refine ⟨?_, fun {i f} hf => ⟨f, ?_, rfl, rfl, fun _ => id⟩⟩
  · exact Nat.le_trans (Nat.le_succ _) (Nat.le_of_eq (Array.size_push ..).symm)
  · have hi := (Array.getElem?_eq_some_iff.mp hf).1
    show (s.frames.push _)[i]? = some f
    rw [Array.getElem?_push_lt hi]
    exact Array.getElem?_eq_getElem hi ▸ hf

/-- Frames keep their realm. -/
theorem realmOf (h : s.Later t) {env : FrameId} (henv : env < s.frames.size) :
    t.realmOf env = s.realmOf env := by
  obtain ⟨f', hf', -, hrealm, -⟩ := h.frames (Array.getElem?_eq_getElem henv)
  rw [Store.realmOf, Store.realmOf, Store.frame, Store.frame, Array.getD_eq_getD_getElem?,
    Array.getD_eq_getD_getElem?, hf', Array.getElem?_eq_getElem henv]
  exact hrealm

/-- The chain of a frame gets no shorter. -/
theorem chain_prefix (h : s.Later t) (env : FrameId) : s.chain env <+: t.chain env := by
  -- the later store has more frames, so more fuel
  have hwithin : ∀ fuel fuel' i, fuel ≤ fuel' →
      chainWithin s.frames fuel i <+: chainWithin t.frames fuel' i := by
    intro fuel
    induction fuel with
    | zero => exact fun _ _ _ => List.nil_prefix
    | succ fuel ih =>
      intro fuel' i hle
      obtain ⟨n, rfl⟩ := Nat.exists_eq_add_one.mpr (Nat.lt_of_lt_of_le (Nat.succ_pos _) hle)
      rw [chainWithin, chainWithin]
      rcases hf : s.frames[i]? with - | f
      · exact List.nil_prefix
      · obtain ⟨f', hf', houter, -, -⟩ := h.frames hf
        rw [hf']
        rcases hout : f.outer with - | o <;> simp only [houter, hout]
        · exact List.prefix_rfl
        · exact List.cons_prefix_cons.mpr ⟨rfl, ih n o (Nat.le_of_succ_le_succ hle)⟩
  exact hwithin _ _ env h.size

/-- In a sound heap, the chain of a frame stays as it is. -/
theorem chain_eq (h : s.Later t) (hs : s.Sound) {env : FrameId} (henv : env < s.frames.size) :
    t.chain env = s.chain env := by
  -- outer frames are older: the fuel never runs out in either store
  have hwithin : ∀ fuel fuel' i, fuel ≤ fuel' → i < fuel → i < s.frames.size →
      chainWithin t.frames fuel' i = chainWithin s.frames fuel i := by
    intro fuel
    induction fuel with
    | zero => exact fun _ _ _ hi _ => absurd hi (Nat.not_lt_zero _)
    | succ fuel ih =>
      intro fuel' i hle hi hsize
      obtain ⟨n, rfl⟩ := Nat.exists_eq_add_one.mpr (Nat.lt_of_lt_of_le (Nat.succ_pos _) hle)
      have hf := getElem?_frames hsize
      obtain ⟨f', hf', houter, -, -⟩ := h.frames hf
      rw [chainWithin, chainWithin, hf, hf']
      rcases hout : (s.frame i).outer with - | o <;> simp only [houter, hout]
      have ho := hs.outer hout
      rw [ih n o (Nat.le_of_succ_le_succ hle) (by omega) (by omega)]
  exact hwithin _ _ env h.size henv henv

/-- So its outermost frame stays the same. -/
theorem global_eq (h : s.Later t) (hs : s.Sound) {env : FrameId} (henv : env < s.frames.size) :
    t.global env = s.global env := by
  rw [global, global, h.chain_eq hs henv]

/-- What has named a macro names one still. -/
theorem isSome_expander? (h : s.Later t) {env : FrameId} {symbol : Symbol}
    (hs : (s.expander? env symbol).isSome) : (t.expander? env symbol).isSome := by
  rw [expander?, List.findSome?_isSome_iff] at hs ⊢
  obtain ⟨i, hi, hsome⟩ := hs
  refine ⟨i, (h.chain_prefix env).subset hi, ?_⟩
  rw [Store.frame, Array.getD_eq_getD_getElem?] at hsome ⊢
  rcases hf : s.frames[i]? with - | f <;> rw [hf] at hsome
  · cases hsome
  · obtain ⟨f', hf', -, -, hexpanders⟩ := h.frames hf
    rw [hf']
    exact hexpanders symbol hsome

end Later

theorem frames_countCall (s : Store) (i : Nat) : (s.countCall i).2.frames = s.frames := by
  simp only [countCall]
  split <;> rfl

/-- No operation removes a frame or a macro. -/
theorem leads_later : Leads OperatesOrMarks Later where
  refl := Later.refl
  trans := Later.trans
  operation hf s := by
    cases hf with
    | setBusy channel i busy => exact .of_frames rfl
    | operates hf =>
      cases hf with
      | bindAt i symbol v =>
        exact .modify_frames s i (fun _ => rfl) (fun _ => rfl) fun _ _ => id
      | bindExpander i symbol closure =>
        -- a name may get a macro, and keeps one it has
        refine .modify_frames s i (fun _ => rfl) (fun _ => rfl) fun f name hname => ?_
        by_cases hsame : name = symbol
        · rw [hsame, Bindings.get?_put_same]
          rfl
        · rwa [Bindings.get?_put_of_ne hsame]
      | extend env => exact .extend s env
      | countCall i => exact .of_frames (frames_countCall s i)
      | _ => exact .of_frames rfl

end Store

/-- No call of the interpreter removes a frame or a macro. -/
theorem run_later (rounds calls : Nat) (c : Call α) (s : Store) :
    s.Later (run rounds calls c s).2 :=
  run_leads Store.leads_later (fun _ _ => .of_frames rfl) (fun _ _ => .of_frames rfl) rounds calls
    c s

/-! ### Levels -/

namespace Store

/-- No operation takes a nested step. -/
theorem leads_level : Leads OperatesOrMarks fun s t => t.level = s.level where
  refl _ := rfl
  trans h h' := h'.trans h
  operation hf s := by
    cases hf with
    | setBusy channel i busy => rfl
    | operates hf =>
      cases hf with
      | countCall i =>
        simp only [countCall]
        split <;> rfl
      | intern env name => exact s.level_modifyRealm env (fun _ => rfl) fun _ => rfl
      | generateSymbol env => exact s.level_modifyRealm env (fun _ => rfl) fun _ => rfl
      | _ => rfl

end Store

/-- Where nothing cuts a run off, no end of a call does. -/
theorem Pairing.not_ends {P : Pairing} (h : ∀ e, ¬ P.cut e) (c : Call α) (r : Except Stop α) :
    ¬ P.Ends c r := by
  intro hends
  -- the kind of the call decides which results a cut may leave
  cases c with
  | parse token mode global source =>
    rcases r with e | ⟨f | v, rest⟩
    · exact h e hends
    · exact h _ hends
    · exact hends
  | emit channel content =>
    rcases r with e | v
    · exact h e hends.2
    · exact hends
  | _ =>
    rcases r with e | v
    · exact h e hends
    · exact hends

/-- Every realm is as deep after a call as it was before. -/
theorem run_level (rounds calls : Nat) (c : Call α) (s : Store) :
    (run rounds calls c s).2.level = s.level := by
  let P : Pairing := ⟨fun _ => False, False, id, s.level, s.level⟩
  have hrun : Lockstep P (P.Ends c) (run rounds calls c) (run rounds calls c) :=
    run_lockstep Pairing.closed_same rfl (.inl rfl) (.inl rfl) c
  rcases hrun s s ⟨.refl s, rfl, rfl, False.elim⟩ with hends | ⟨-, hties⟩
  · exact (Pairing.not_ends (fun _ => id) c _ hends).elim
  · exact hties.low

section Room

variable {s t : Store} {env : FrameId} {rounds calls : Nat} {c : Call α} {r : Except Stop α}

theorem Store.Later.of_run (h : run rounds calls c s = (r, t)) : s.Later t := by
  have hlater := run_later rounds calls c s
  rwa [h] at hlater

theorem level_of_run (h : run rounds calls c s = (r, t)) : t.level = s.level := by
  have hlevel := run_level rounds calls c s
  rwa [h] at hlevel

theorem Store.Later.room_eq (h : s.Later t) (hlevel : t.level = s.level)
    (henv : env < s.frames.size) : t.room env = s.room env := by
  simp only [Store.room, h.realmOf henv, hlevel]

/-- A frame that is there has as much room after a call as before. -/
theorem room_of_run (h : run rounds calls c s = (r, t)) (henv : env < s.frames.size) :
    env < t.frames.size ∧ t.room env = s.room env := by
  have hlater := Store.Later.of_run h
  exact ⟨Nat.lt_of_lt_of_le henv hlater.size, hlater.room_eq (level_of_run h) henv⟩

end Room

end PocketLisp
