/-
PocketLisp/Proofs/Clusters.lean

Where clusters are put together, and where they stay apart.

A text is cut from left to right, and whether it is cut at a place depends on
what stands before it.  But nothing of that is left behind a cut
(`Context.next_of_breaksBefore`): what follows is cut as if it stood alone.  So
each cluster of a text is one cluster on its own (`split_of_mem_split`), and
clusters that are put together in any order are the clusters of the whole
exactly if every two neighbours are those of what they make together
(`split_flatten_iff`).

Clusters that are put together may join, and they may also be cut anew: of
three regional indicators the last one stands alone, and put in front it takes
the first one of the other two.  Every such cut makes up for one that is
missing, so there are never more clusters than have been put together
(`length_split_flatten_le`).
-/
import Mathlib.Data.List.Chain
import PocketLisp.Text.Cluster

namespace PocketLisp.Text.Cluster

variable {s : Context} {p : Property} {c : Char} {cs g h : List Char} {gs : List (List Char)}

/-! ### Contexts -/

/-- What the marks of a context say of its last character. -/
structure Context.Sound (s : Context) : Prop where
  indicator : s.oddIndicators = true → s.last = .regionalIndicator
  pictograph : s.last.isControl = true → s.pictograph = false
  conjunct : s.last.isControl = true → s.conjunct = .none

theorem Context.sound_start (p : Property) : (Context.start p).Sound := by
  constructor <;> cases p <;> simp [Context.start, Property.isControl, Conjunct.next]

theorem Context.sound_next (s : Context) (p : Property) : (s.next p).Sound := by
  constructor <;> cases p <;>
    simp [Context.next, Property.isControl, Property.isExtending, Conjunct.next]

/-- In front of a mark, a text is cut only behind a control character. -/
theorem isControl_of_breaksBefore_mark (hp : (p.isExtending || p = .joiner) = true)
    (h : breaksBefore s p = true) : s.last.isControl = true := by
  by_contra hlast
  have hcut : breaksBefore s p = false := by
    cases p <;> simp_all [breaksBefore, Property.isExtending, Property.isControl, hangulJoins]
  rw [hcut] at h
  cases h

/-- In front of a regional indicator, a text is not cut behind an odd number of them. -/
theorem even_of_breaksBefore_indicator (hs : s.Sound)
    (h : breaksBefore s .regionalIndicator = true) : s.oddIndicators = false := by
  by_contra hodd
  rw [Bool.not_eq_false] at hodd
  simp [breaksBefore, hs.indicator hodd, hodd, Property.isControl, hangulJoins,
    Property.isExtending] at h

/-- Behind a cut, nothing is left of what stands before it. -/
theorem Context.next_of_breaksBefore (hs : s.Sound) (h : breaksBefore s p = true) :
    s.next p = .start p := by
  by_cases hp : (p.isExtending || p = .joiner) = true
  · -- a mark keeps what stands before it, but a control character has left nothing to keep
    have hlast := isControl_of_breaksBefore_mark hp h
    cases p <;> simp_all [next, start, hs.pictograph hlast, hs.conjunct hlast, Conjunct.next,
      Property.isExtending]
  · cases p <;> simp_all [next, start, Conjunct.next, Property.isExtending,
      even_of_breaksBefore_indicator]

/-! ### One cluster -/

/-- Characters that are one cluster on their own, and the context behind them. -/
inductive Whole : List Char → Context → Prop
  | single (c : Char) : Whole [c] (.start (Property.of c))
  | snoc {g : List Char} {s : Context} {c : Char} : Whole g s →
      breaksBefore s (Property.of c) = false → Whole (g ++ [c]) (s.next (Property.of c))

theorem Whole.sound (hg : Whole g s) : s.Sound := by
  cases hg with
  | single c => exact Context.sound_start _
  | snoc _ _ => exact Context.sound_next _ _

/-- What follows is cut as the context behind the cluster demands. -/
theorem Whole.split_append (hg : Whole g s) (cs : List Char) :
    split (g ++ cs) = splitFrom s g.reverse cs := by
  induction hg generalizing cs with
  | single c => rfl
  | @snoc g s c _ hjoin ih =>
    rw [List.append_assoc, ih, List.singleton_append, splitFrom, List.reverse_concat]
    simp only [hjoin, Bool.false_eq_true, if_false]

theorem Whole.split_self (hg : Whole g s) : split g = [g] := by
  have hsplit := hg.split_append []
  rwa [List.append_nil, splitFrom, List.reverse_reverse] at hsplit

/-- All pieces of a text are clusters on their own. -/
theorem exists_whole_of_mem_splitFrom {cluster : List Char} (hcluster : Whole cluster.reverse s)
    (h : g ∈ splitFrom s cluster cs) : ∃ t, Whole g t := by
  induction cs generalizing s cluster with
  | nil =>
    obtain rfl := List.mem_singleton.mp h
    exact ⟨s, hcluster⟩
  | cons c cs ih =>
    simp only [splitFrom] at h
    split at h
    · next hbreak =>
      rcases List.mem_cons.mp h with rfl | h
      · exact ⟨s, hcluster⟩
      · -- the next piece is begun as at the front of a text
        rw [Context.next_of_breaksBefore hcluster.sound hbreak] at h
        exact ih (show Whole [c].reverse _ from .single c) h
    · next hjoin =>
      have hlonger := hcluster.snoc (Bool.eq_false_iff.mpr hjoin)
      rw [← List.reverse_cons] at hlonger
      exact ih hlonger h

theorem exists_whole_of_mem_split (h : g ∈ split cs) : ∃ s, Whole g s := by
  cases cs with
  | nil => cases h
  | cons c cs => exact exists_whole_of_mem_splitFrom (show Whole [c].reverse _ from .single c) h

theorem exists_whole (h : split g = [g]) : ∃ s, Whole g s :=
  exists_whole_of_mem_split (h ▸ List.mem_singleton_self g)

theorem split_of_mem_split (h : g ∈ split cs) : split g = [g] := by
  obtain ⟨s, hg⟩ := exists_whole_of_mem_split h
  exact hg.split_self

/-! ### Clusters that are put together -/

/-- Two clusters stay apart when one is put behind the other. -/
def Apart (g h : List Char) : Prop := split (g ++ h) = [g, h]

instance : DecidableRel Apart := fun g h => inferInstanceAs (Decidable (split (g ++ h) = [g, h]))

/-- The first piece of a text begins with what has been collected. -/
theorem exists_splitFrom_eq_cons (s : Context) (cluster cs : List Char) :
    ∃ more rest, splitFrom s cluster cs = (cluster.reverse ++ more) :: rest := by
  induction cs generalizing s cluster with
  | nil => exact ⟨[], [], by rw [splitFrom, List.append_nil]⟩
  | cons c cs ih =>
    simp only [splitFrom]
    split
    · exact ⟨[], _, by rw [List.append_nil]⟩
    · obtain ⟨more, rest, heq⟩ := ih (s.next (Property.of c)) (c :: cluster)
      exact ⟨c :: more, rest, by rw [heq, List.reverse_cons, List.append_assoc,
        List.singleton_append]⟩

/-- What stands behind a cluster, beginning with a character in front of which the text is cut, is
cut as if it stood alone. -/
theorem Whole.split_append_of_breaks (hg : Whole g s)
    (h : breaksBefore s (Property.of c) = true) (cs : List Char) :
    split (g ++ c :: cs) = g :: split (c :: cs) := by
  rw [hg.split_append, splitFrom, split, List.reverse_reverse]
  simp only [h, if_true, Context.next_of_breaksBefore hg.sound h]

theorem Whole.breaks_of_split_append (hg : Whole g s) {rest : List (List Char)}
    (h : split (g ++ c :: cs) = g :: rest) : breaksBefore s (Property.of c) = true := by
  by_contra hjoin
  obtain ⟨more, rest', heq⟩ := exists_splitFrom_eq_cons (s.next (Property.of c)) (c :: g.reverse) cs
  rw [hg.split_append, splitFrom] at h
  simp only [hjoin, if_false, Bool.false_eq_true, heq] at h
  -- the first piece goes on behind the cluster
  have hlength := congrArg List.length (List.cons.inj h).1
  simp at hlength

/-- Clusters are put together to a text that is cut into them exactly if no two neighbours join. -/
theorem split_flatten_iff (hgs : ∀ g ∈ gs, split g = [g]) :
    split gs.flatten = gs ↔ gs.IsChain Apart := by
  induction gs with
  | nil => exact ⟨fun _ => .nil, fun _ => rfl⟩
  | cons g gs ih =>
    obtain ⟨hg, hgs⟩ := List.forall_mem_cons.mp hgs
    obtain ⟨s, hwhole⟩ := exists_whole hg
    rcases gs with - | ⟨h, gs⟩
    · simpa using hg
    · have hh := hgs h List.mem_cons_self
      rcases h with - | ⟨c, h⟩
      · cases hh
      · -- whether the first two stay apart is decided in front of the first character of the second
        rw [List.isChain_cons_cons, ← ih hgs, List.flatten_cons, List.flatten_cons,
          List.cons_append]
        constructor
        · intro hsplit
          have hbreak := hwhole.breaks_of_split_append hsplit
          rw [hwhole.split_append_of_breaks hbreak] at hsplit
          refine ⟨?_, (List.cons.inj hsplit).2⟩
          rw [Apart, hwhole.split_append_of_breaks hbreak, hh]
        · rintro ⟨hapart, hrest⟩
          have hbreak := hwhole.breaks_of_split_append hapart
          rw [hwhole.split_append_of_breaks hbreak, hrest]

/-! ### The number of clusters -/

/-- How often a text is cut, the place in front of it included. -/
def cuts (s : Context) : List Char → Nat
  | [] => 0
  | c :: cs =>
    (if breaksBefore s (Property.of c) then 1 else 0) + cuts (s.next (Property.of c)) cs

/-- The context behind a text. -/
def Context.after (s : Context) (cs : List Char) : Context :=
  cs.foldl (fun s c => s.next (Property.of c)) s

theorem length_splitFrom (s : Context) (cluster cs : List Char) :
    (splitFrom s cluster cs).length = cuts s cs + 1 := by
  induction cs generalizing s cluster with
  | nil => rfl
  | cons c cs ih =>
    simp only [splitFrom, cuts]
    split
    · rw [List.length_cons, ih]
      omega
    · rw [ih]
      omega

theorem cuts_append (s : Context) (cs ds : List Char) :
    cuts s (cs ++ ds) = cuts s cs + cuts (s.after cs) ds := by
  induction cs generalizing s with
  | nil => simp [cuts, Context.after]
  | cons c cs ih =>
    rw [List.cons_append, cuts, cuts, ih, Nat.add_assoc]
    rfl

theorem Context.after_concat (s : Context) (cs : List Char) (c : Char) :
    s.after (cs ++ [c]) = (s.after cs).next (Property.of c) := by
  rw [after, List.foldl_append]
  rfl

theorem Context.sound_after (hs : s.Sound) (cs : List Char) : (s.after cs).Sound := by
  induction cs generalizing s with
  | nil => exact hs
  | cons c cs ih => exact ih (sound_next s _)

/-- Behind the same character, as much or more of what joins the next character to it; how many
regional indicators there are is left open. -/
structure Context.Within (s t : Context) : Prop where
  last : s.last = t.last
  pictograph : s.pictograph = true → t.pictograph = true
  joined : s.joined = true → t.joined = true
  opened : s.conjunct ≠ .none → t.conjunct ≠ .none
  linked : s.conjunct = .linked → t.conjunct = .linked

theorem Context.within_start_next (s : Context) (p : Property) :
    (Context.start p).Within (s.next p) := by
  constructor <;> cases p <;> simp [start, next, Conjunct.next]

theorem Context.Within.next {t : Context} (h : s.Within t) (p : Property) :
    (s.next p).Within (t.next p) := by
  obtain ⟨-, hpictograph, hjoined, hopened, hlinked⟩ := h
  constructor <;> cases p <;> simp_all [Context.next, Conjunct.next, Property.isExtending]

/-- Where more joins a character, the text is cut in front of it for one reason only: the number of
regional indicators before it is even, and was odd in the other context. -/
theorem Context.Within.breaksBefore_only {t : Context} (h : s.Within t)
    (hs : breaksBefore s p = false) (ht : breaksBefore t p = true) :
    p = .regionalIndicator ∧ s.oddIndicators = true ∧ t.oddIndicators = false := by
  obtain ⟨last, odd, pictograph, joined, conjunct⟩ := s
  obtain ⟨last', odd', pictograph', joined', conjunct'⟩ := t
  obtain ⟨hlast, hpictograph, hjoined, hopened, hlinked⟩ := h
  simp only at hlast hpictograph hjoined hopened hlinked
  subst hlast
  simp only [breaksBefore] at hs ht
  split_ifs at hs ht <;> simp_all

/-- A regional indicator is joined to one that stands alone so far, or to what is put in front of
other characters. -/
theorem odd_or_prepend (h : breaksBefore s .regionalIndicator = false) :
    s.oddIndicators = true ∨ s.last = .prepend := by
  by_contra hneither
  rw [not_or, Bool.not_eq_true] at hneither
  simp only [breaksBefore] at h
  split_ifs at h <;> simp_all [hangulJoins, Property.isExtending]

/-- If the text is not cut in front of a character, an odd number of regional indicators in one
context means an odd number in the other one, if that was so before. -/
theorem Context.Within.odd_next {t : Context} (h : s.Within t) (ht : t.Sound)
    (hs : breaksBefore s p = false) (hodd : (s.next p).oddIndicators = true) :
    (t.next p).oddIndicators = true := by
  obtain ⟨hp, heven⟩ : p = .regionalIndicator ∧ s.oddIndicators = false := by
    simpa [Context.next] using hodd
  rw [hp] at hs ⊢
  -- what joins the indicator is put in front of it, and so it is in the other context
  have hprepend := (odd_or_prepend hs).resolve_left (by simp [heven])
  have heven' : t.oddIndicators = false := by
    by_contra hodd
    have hlast := ht.indicator (Bool.not_eq_false _ ▸ hodd)
    rw [← h.last, hprepend] at hlast
    cases hlast
  simp [Context.next, heven']

/-- A cluster that is put behind other text is cut once at most. -/
theorem Whole.cuts_le {t : Context} (hg : Whole g t) (hs : s.Sound) :
    t.Within (s.after g) ∧
      (cuts s g = 0 ∨
        cuts s g = 1 ∧ (t.oddIndicators = true → (s.after g).oddIndicators = true)) := by
  induction hg with
  | single c =>
    refine ⟨Context.within_start_next s _, ?_⟩
    by_cases hbreak : breaksBefore s (Property.of c) = true
    · refine .inr ⟨by simp [cuts, hbreak], fun hodd => ?_⟩
      rw [Context.after, List.foldl_cons, List.foldl_nil, Context.next_of_breaksBefore hs hbreak]
      exact hodd
    · exact .inl (by simp [cuts, hbreak])
  | @snoc g t c hg hjoin ih =>
    obtain ⟨hwithin, hcuts⟩ := ih
    have hsound := Context.sound_after hs g
    rw [Context.after_concat, cuts_append]
    refine ⟨hwithin.next _, ?_⟩
    by_cases hbreak : breaksBefore (s.after g) (Property.of c) = true
    · -- cut inside, between two regional indicators: the first one has been joined to what
      -- stands before it
      obtain ⟨hp, hodd, heven⟩ := hwithin.breaksBefore_only hjoin hbreak
      rcases hcuts with hnone | ⟨-, hkept⟩
      · refine .inr ⟨by simp [cuts, hbreak, hnone], fun _ => ?_⟩
        rw [Context.next_of_breaksBefore hsound hbreak, hp]
        rfl
      · rw [hkept hodd] at heven
        cases heven
    · have hsame : cuts (s.after g) [c] = 0 := by simp [cuts, hbreak]
      rw [hsame, Nat.add_zero]
      exact hcuts.imp_right fun ⟨hone, _⟩ => ⟨hone, hwithin.odd_next hsound hjoin⟩

theorem cuts_flatten_le (hgs : ∀ g ∈ gs, split g = [g]) (hs : s.Sound) :
    cuts s gs.flatten ≤ gs.length := by
  induction gs generalizing s with
  | nil => exact Nat.le_refl 0
  | cons g gs ih =>
    obtain ⟨hg, hgs⟩ := List.forall_mem_cons.mp hgs
    obtain ⟨t, hwhole⟩ := exists_whole hg
    have hone : cuts s g ≤ 1 := by
      rcases (hwhole.cuts_le hs).2 with h | ⟨h, -⟩ <;> omega
    have hrest := ih hgs (Context.sound_after hs g)
    rw [List.flatten_cons, cuts_append, List.length_cons]
    omega

/-- Clusters that are put together make as many clusters at most. -/
theorem length_split_flatten_le (hgs : ∀ g ∈ gs, split g = [g]) :
    (split gs.flatten).length ≤ gs.length := by
  cases gs with
  | nil => exact Nat.le_refl 0
  | cons g gs =>
    obtain ⟨hg, hgs⟩ := List.forall_mem_cons.mp hgs
    obtain ⟨s, hwhole⟩ := exists_whole hg
    rw [List.flatten_cons, hwhole.split_append, length_splitFrom]
    exact Nat.succ_le_succ (cuts_flatten_le hgs hwhole.sound)

end PocketLisp.Text.Cluster
