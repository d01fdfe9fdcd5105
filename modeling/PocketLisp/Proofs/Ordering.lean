/-
PocketLisp/Proofs/Ordering.lean

Comparisons as orders.

A number is a point of the line of fractions with an end in either direction;
both zeros are the same point, and NaN is none (`Number.place?`).  The parts of
numbers are compared one after another, the exponents before the mantissas, which
is the order of the points because the parts are canonical (`compare_canonical`).
Texts have the order of their code points, character by character, which is that of
their bytes in UTF-8 (`compareTexts_bytes`).

So each comparison is one of a linear order, where there are points to compare, and
of several arguments it holds between any two if it holds between neighbours.

Main result: `comparison_of_all_pairs`.
-/
import PocketLisp.Proofs.Indices
import PocketLisp.Proofs.Operands

namespace PocketLisp

/-! ### The line of numbers -/

namespace Number

open Float.Model (UnpackedFloat)

/-- The fractions with an end in either direction. -/
abbrev Line := WithBot (WithTop ℚ)

/-- The point of the line that a number is, if it is one. -/
def place? (x : Float) : Option Line :=
  match exact x with
  | .notANumber => none
  | .infinity .positive => some ⊤
  | .infinity .negative => some ⊥
  | _ => (rational? x).map fun r => ((r : WithTop ℚ) : Line)

section Canonical

variable {m m' : Nat} {q q' : Int}

/-- A greater exponent outweighs the mantissas: a mantissa is at least half of one more than the
largest one, unless its exponent is the least. -/
theorem Canonical.lt_of_exponent (h : Canonical m q) (h' : Canonical m' q') (hq : q < q') :
    (m * 2 ^ q : ℚ) < m' * 2 ^ q' := by
  have hunit : (0 : ℚ) < 2 ^ q := by positivity
  have hm : (m : ℚ) < 2 ^ 53 := by exact_mod_cast h.lt
  have hm' : (2 ^ 52 : ℚ) ≤ m' := by exact_mod_cast h'.normal (h.least.trans_lt hq)
  have hstep : (2 : ℚ) ^ q * 2 ≤ 2 ^ q' := by
    rw [← zpow_add_one₀ (by norm_num)]
    exact two_zpow_le (by omega)
  calc (m * 2 ^ q : ℚ) < 2 ^ 53 * 2 ^ q := mul_lt_mul_of_pos_right hm hunit
    _ = 2 ^ 52 * (2 ^ q * 2) := by ring
    _ ≤ m' * 2 ^ q' := mul_le_mul hm' hstep (by positivity) (by positivity)

/-- Canonical numbers without a sign are ordered by their exponents first and by their mantissas
second. -/
theorem compare_canonical (h : Canonical m q) (h' : Canonical m' q') :
    (compare q q').then (compare m m') = cmp (m * 2 ^ q : ℚ) (m' * 2 ^ q') := by
  rcases lt_trichotomy q q' with hq | rfl | hq
  · rw [compare_lt_iff_lt.mpr hq, (h.lt_of_exponent h' hq).cmp_eq_lt]
    rfl
  · have hunit : (0 : ℚ) < 2 ^ q := by positivity
    rw [compare_eq_iff_eq.mpr rfl, cmp_mul_pos_right hunit, ← cmp_eq_compare]
    exact (Nat.strictMono_cast.cmp_map_eq m m').symm
  · rw [compare_gt_iff_gt.mpr hq, (h'.lt_of_exponent h hq).cmp_eq_gt]
    rfl

end Canonical

/-- A fraction is zero, or it is positive or negative with a mantissa and an exponent. -/
theorem rational?_cases {x : Float} {r : ℚ} (h : rational? x = some r) :
    (∃ s, exact x = .zero s ∧ r = 0) ∨
      ∃ m q, ∃ hm : 0 < m, Canonical m q ∧ (0 : ℚ) < m * 2 ^ q ∧
        (exact x = .finite .positive m q hm ∧ r = m * 2 ^ q ∨
          exact x = .finite .negative m q hm ∧ r = -(m * 2 ^ q)) := by
  rw [rational?] at h
  -- NaN and the infinities have no place among the rationals
  cases hx : exact x with
  | notANumber | infinity =>
    rw [hx] at h
    cases h
  | zero s =>
    rw [hx] at h
    exact .inl ⟨s, rfl, (Option.some.inj h).symm⟩
  | finite s m q hm =>
    rw [hx] at h
    refine .inr ⟨m, q, hm, canonical_of_exact hx, by positivity, ?_⟩
    cases s with
    | positive => exact .inl ⟨rfl, (Option.some.inj h).symm⟩
    | negative => exact .inr ⟨rfl, (Option.some.inj h).symm⟩

/-- Numbers that are fractions are compared as these. -/
theorem compare_of_rational {x y : Float} {r r' : ℚ} (hx : rational? x = some r)
    (hy : rational? y = some r') : (exact x).compare (exact y) = some (cmp r r') := by
  rcases rational?_cases hx with ⟨s, ex, rfl⟩ | ⟨m, q, hm, hc, hpos, ⟨ex, rfl⟩ | ⟨ex, rfl⟩⟩ <;>
    rcases rational?_cases hy with
      ⟨s', ey, rfl⟩ | ⟨m', q', hm', hc', hpos', ⟨ey, rfl⟩ | ⟨ey, rfl⟩⟩ <;>
    rw [ex, ey]
  · exact congrArg some (cmp_self_eq_eq 0).symm
  · exact congrArg some hpos'.cmp_eq_lt.symm
  · exact congrArg some (neg_lt_zero.mpr hpos').cmp_eq_gt.symm
  · exact congrArg some hpos.cmp_eq_gt.symm
  · exact congrArg some (compare_canonical hc hc')
  · exact congrArg some ((neg_lt_zero.mpr hpos').trans hpos).cmp_eq_gt.symm
  · exact congrArg some (neg_lt_zero.mpr hpos).cmp_eq_lt.symm
  · exact congrArg some ((neg_lt_zero.mpr hpos).trans hpos').cmp_eq_lt.symm
  · -- the order of the magnitudes is turned round
    have hneg : StrictAnti fun r : ℚ => -r := fun _ _ => neg_lt_neg
    rw [hneg.cmp_map_eq, ← cmp_swap, ← compare_canonical hc hc']
    rfl

/-- A point of the line is a fraction or an end. -/
theorem place?_cases (x : Float) :
    (exact x = .notANumber ∧ place? x = none) ∨
    (exact x = .infinity .negative ∧ place? x = some ⊥) ∨
    (exact x = .infinity .positive ∧ place? x = some ⊤) ∨
    ∃ r : ℚ, rational? x = some r ∧ place? x = some ((r : WithTop ℚ) : Line) := by
  rw [place?]
  cases hx : exact x with
  | notANumber => exact .inl ⟨rfl, rfl⟩
  | infinity s =>
    cases s with
    | negative => exact .inr (.inl ⟨rfl, rfl⟩)
    | positive => exact .inr (.inr (.inl ⟨rfl, rfl⟩))
  | zero s =>
    have hr : rational? x = some 0 := by rw [rational?, hx]
    exact .inr (.inr (.inr ⟨0, hr, by rw [hr]; rfl⟩))
  | finite s m q hm =>
    obtain ⟨r, hr⟩ : ∃ r, rational? x = some r := by
      rw [rational?, hx]
      cases s <;> exact ⟨_, rfl⟩
    exact .inr (.inr (.inr ⟨r, hr, by rw [hr]; rfl⟩))

theorem cmp_line (r r' : ℚ) : cmp ((r : WithTop ℚ) : Line) ((r' : WithTop ℚ) : Line) = cmp r r' :=
  (WithBot.coe_strictMono.comp WithTop.coe_strictMono).cmp_map_eq r r'

/-- Infinities are greater or less than all fractions. -/
theorem compare_infinity {x : Float} {r : ℚ} (hx : rational? x = some r) :
    (UnpackedFloat.infinity .positive).compare (exact x) = some .gt ∧
    (UnpackedFloat.infinity .negative).compare (exact x) = some .lt ∧
    (exact x).compare (.infinity .positive) = some .lt ∧
    (exact x).compare (.infinity .negative) = some .gt := by
  rcases rational?_cases hx with ⟨s, ex, -⟩ | ⟨m, q, hm, -, -, ⟨ex, -⟩ | ⟨ex, -⟩⟩ <;> rw [ex] <;>
    exact ⟨rfl, rfl, rfl, rfl⟩

/-- Numbers are compared as the points that they are, if they are points. -/
theorem compare_exact (x y : Float) : (exact x).compare (exact y) =
    (place? x).bind fun p => (place? y).map fun p' => cmp p p' := by
  have hends : (⊥ : Line) < ⊤ := bot_lt_top
  have hlow (r : ℚ) : (⊥ : Line) < ((r : WithTop ℚ) : Line) := WithBot.bot_lt_coe _
  have hhigh (r : ℚ) : ((r : WithTop ℚ) : Line) < ⊤ := WithBot.coe_lt_coe.mpr (WithTop.coe_lt_top r)
  rcases place?_cases x with ⟨ex, hx⟩ | ⟨ex, hx⟩ | ⟨ex, hx⟩ | ⟨r, hr, hx⟩ <;>
    rcases place?_cases y with ⟨ey, hy⟩ | ⟨ey, hy⟩ | ⟨ey, hy⟩ | ⟨r', hr', hy⟩ <;>
    simp only [hx, hy, Option.bind_none, Option.bind_some, Option.map_none, Option.map_some]
  -- NaN on the left
  · rw [ex, ey]; rfl
  · rw [ex, ey]; rfl
  · rw [ex, ey]; rfl
  · rw [ex]; rfl
  -- the lower end
  · rw [ex, ey]; rfl
  · rw [ex, ey, cmp_self_eq_eq]; rfl
  · rw [ex, ey, hends.cmp_eq_lt]; rfl
  · rw [ex, (compare_infinity hr').2.1, (hlow r').cmp_eq_lt]
  -- the upper end
  · rw [ex, ey]; rfl
  · rw [ex, ey, hends.cmp_eq_gt]; rfl
  · rw [ex, ey, cmp_self_eq_eq]; rfl
  · rw [ex, (compare_infinity hr').1, (hhigh r').cmp_eq_gt]
  -- a fraction
  · rw [ey]; cases exact x <;> rfl
  · rw [ey, (compare_infinity hr).2.2.2, (hlow r).cmp_eq_gt]
  · rw [ey, (compare_infinity hr).2.2.1, (hhigh r).cmp_eq_lt]
  · rw [compare_of_rational hr hr', cmp_line]

/-- The order of two numbers is that of their points. -/
theorem compare?_eq (x y : Float) :
    compare? x y = (place? x).bind fun p => (place? y).map fun p' => cmp p p' := by
  have hlt (x y : Float) : x < y ↔ (exact x).compare (exact y) = some .lt :=
    decide_eq_true_iff.trans beq_iff_eq
  have heq : (x == y) = ((exact x).compare (exact y) == some .eq) := rfl
  rw [compare?, heq]
  simp only [hlt, beq_iff_eq, compare_exact]
  rcases place? x with - | p
  · rcases place? y with - | p' <;> rfl
  · rcases place? y with - | p'
    · rfl
    · simp only [Option.bind_some, Option.map_some, Option.some.injEq]
      -- less, equal and greater are tried in this order
      rcases lt_trichotomy p p' with h | rfl | h
      · rw [h.cmp_eq_lt, if_pos rfl]
      · rw [cmp_self_eq_eq, if_neg (by decide), if_pos rfl]
      · rw [h.cmp_eq_gt, h.cmp_eq_lt, if_neg (by decide), if_neg (by decide), if_pos rfl]

end Number

/-! ### The order of texts -/

/-- The code points of a text. -/
def codePoints (s : String) : List Nat := s.toList.map Char.toNat

theorem codePoints_injective : Function.Injective codePoints := by
  have htoNat : Function.Injective Char.toNat := fun _ _ => Char.toNat_inj.mp
  exact htoNat.list_map.comp fun _ _ => String.toList_inj.mp

theorem codePoints_lt_iff (s t : String) : codePoints s < codePoints t ↔ s < t := by
  have hlist (cs ds : List Char) : cs.map Char.toNat < ds.map Char.toNat ↔ cs < ds := by
    induction cs generalizing ds with
    | nil => cases ds <;> simp
    | cons c cs ih =>
      cases ds with
      | nil => simp
      | cons d ds =>
        rw [List.map_cons, List.map_cons, List.cons_lt_cons_iff, List.cons_lt_cons_iff, ih,
          Char.toNat_inj]
        rfl
  exact (hlist _ _).trans String.lt_iff_toList_lt.symm

/-- Texts are ordered as the lists of their code points. -/
theorem compares_compareTexts (s t : String) :
    (compareTexts s t).Compares (codePoints s) (codePoints t) := by
  rw [compareTexts]
  simp only [← codePoints_lt_iff, beq_iff_eq, ← codePoints_injective.eq_iff]
  split
  · next h => exact h
  · next h =>
    split
    · next heq => exact heq
    · next hne => exact (lt_or_gt_of_ne hne).resolve_left h

/-! ### Bytes -/

/-- The bytes of a text in UTF-8. -/
def utf8Bytes (s : String) : List Nat := s.toUTF8.data.toList.map UInt8.toNat

/-- The bytes of a code point in UTF-8: a first byte that tells how many there are, and six bits in
each of the others. -/
def encodedPoint (n : Nat) : List Nat :=
  if n < 128 then [n]
  else if n < 2048 then [n / 64 + 192, n % 64 + 128]
  else if n < 65536 then [n / 64 / 64 + 224, n / 64 % 64 + 128, n % 64 + 128]
  else [n / 64 / 64 / 64 + 240, n / 64 / 64 % 64 + 128, n / 64 % 64 + 128, n % 64 + 128]

theorem map_utf8EncodeChar (c : Char) :
    (String.utf8EncodeChar c).map UInt8.toNat = encodedPoint c.toNat := by
  have hval : c.val.toNat = c.toNat := rfl
  have hlt : c.toNat < 0x110000 := by
    rcases c.valid with h | h <;> omega
  have hdiv₂ (k : Nat) : k / 4096 = k / 64 / 64 := (Nat.div_div_eq_div_mul k 64 64).symm
  have hdiv₃ (k : Nat) : k / 262144 = k / 64 / 64 / 64 := by
    rw [Nat.div_div_eq_div_mul, Nat.div_div_eq_div_mul]
  simp only [String.utf8EncodeChar, hval, hdiv₂, hdiv₃, encodedPoint]
  generalize c.toNat = n at *
  split_ifs <;>
    simp only [List.map_cons, List.map_nil, UInt8.toNat_ofNat', List.cons.injEq, and_true] <;>
    omega

theorem utf8Bytes_eq (s : String) : utf8Bytes s = (codePoints s).flatMap encodedPoint := by
  have hbytes : s.toUTF8 = (s.toList.flatMap String.utf8EncodeChar).toByteArray := by
    rw [String.toUTF8, ← List.utf8Encode, String.utf8Encode_toList]
  rw [utf8Bytes, hbytes, List.data_toByteArray, List.map_flatMap, codePoints, List.flatMap_map]
  simp only [map_utf8EncodeChar]

theorem encodedPoint_ne_nil (n : Nat) : encodedPoint n ≠ [] := by
  unfold encodedPoint
  split_ifs <;> exact nofun

/-- The bytes of the smaller one of two code points are smaller, and not just the first bytes of the
other one. -/
theorem encodedPoint_lt {m n : Nat} (h : m < n) (xs ys : List Nat) :
    encodedPoint m ++ xs < encodedPoint n ++ ys := by
  unfold encodedPoint
  split_ifs <;> simp only [List.cons_append, List.nil_append, List.cons_lt_cons_iff] <;> omega

/-- Bytes have the order of the code points that they encode. -/
theorem strictMono_encoded : StrictMono fun ns : List Nat => ns.flatMap encodedPoint := by
  intro ms ns h
  induction ms generalizing ns with
  | nil =>
    cases ns with
    | nil => exact absurd h (lt_irrefl _)
    | cons n ns =>
      obtain ⟨b, bs, hn⟩ := List.exists_cons_of_ne_nil (encodedPoint_ne_nil n)
      show [] < encodedPoint n ++ ns.flatMap encodedPoint
      rw [hn]
      exact List.nil_lt_cons b _
  | cons m ms ih =>
    cases ns with
    | nil => exact absurd h (List.not_lt_nil _)
    | cons n ns =>
      show encodedPoint m ++ ms.flatMap encodedPoint < encodedPoint n ++ ns.flatMap encodedPoint
      -- the first points differ, so do their bytes; or they agree and the rests decide
      rcases List.cons_lt_cons_iff.mp h with hlt | ⟨rfl, htail⟩
      · exact encodedPoint_lt hlt _ _
      · exact List.append_left_lt (ih htail)

namespace Comparison

/-- A comparison as a relation of a linear order. -/
def Orders {α : Type} [LinearOrder α] : Comparison → α → α → Prop
  | .eq, a, b => a = b
  | .lt, a, b => a < b
  | .gt, a, b => b < a
  | .le, a, b => a ≤ b
  | .ge, a, b => b ≤ a

theorem Orders.trans {α : Type} [LinearOrder α] {c : Comparison} {a b d : α} (h : c.Orders a b)
    (h' : c.Orders b d) : c.Orders a d := by
  cases c with
  | eq => exact Eq.trans h h'
  | lt => exact lt_trans h h'
  | gt => exact lt_trans h' h
  | le => exact le_trans h h'
  | ge => exact le_trans h' h

theorem orders_map {α β : Type} [LinearOrder α] [LinearOrder β] {f : α → β} (hf : StrictMono f)
    (c : Comparison) (a b : α) : c.Orders (f a) (f b) ↔ c.Orders a b := by
  cases c with
  | eq => exact hf.injective.eq_iff
  | lt | gt => exact hf.lt_iff_lt
  | le | ge => exact hf.le_iff_le

theorem holds_iff {α : Type} [LinearOrder α] (c : Comparison) {o : Ordering} {a b : α}
    (h : o.Compares a b) : c.holds o = true ↔ c.Orders a b := by
  cases o with
  | lt =>
    have h : a < b := h
    cases c <;> simp [holds, Orders, h, h.le, h.ne, h.not_gt]
  | eq =>
    obtain rfl : a = b := h
    cases c <;> simp [holds, Orders]
  | gt =>
    have h : b < a := h
    cases c <;> simp [holds, Orders, h, h.le, h.ne', h.not_gt]

/-- A comparison holds of two numbers that are points of the line, or of two texts, if they are in
this order.  It does not hold of NaN. -/
def HoldsOf (c : Comparison) : Value → Value → Prop
  | .number x, .number y =>
    ∃ p q, Number.place? x = some p ∧ Number.place? y = some q ∧ c.Orders p q
  | .text _ s, .text _ t => c.Orders (codePoints s) (codePoints t)
  | _, _ => False

theorem relates_iff (c : Comparison) (a b : Value) : c.relates a b = true ↔ c.HoldsOf a b := by
  cases a with
  | number x =>
    cases b with
    | number y =>
      rw [relates, HoldsOf, Number.compare?_eq]
      rcases Number.place? x with - | p
      · simp
      · rcases Number.place? y with - | q
        · simp
        · simpa using c.holds_iff (cmp_compares p q)
    | _ => exact iff_of_false Bool.false_ne_true id
  | text i s =>
    cases b with
    | text j t => exact c.holds_iff (compares_compareTexts s t)
    | _ => exact iff_of_false Bool.false_ne_true id
  | _ => exact iff_of_false Bool.false_ne_true id

theorem HoldsOf.trans {c : Comparison} {a b d : Value} (h : c.HoldsOf a b) (h' : c.HoldsOf b d) :
    c.HoldsOf a d := by
  -- no relation holds between operands of two classes, nor of any other class
  cases a with
  | number x =>
    cases b with
    | number y =>
      cases d with
      | number z =>
        obtain ⟨p, q, hp, hq, h⟩ := h
        obtain ⟨q', r, hq', hr, h'⟩ := h'
        obtain rfl : q = q' := Option.some.inj (hq.symm.trans hq')
        exact ⟨p, r, hp, hr, h.trans h'⟩
      | _ => exact h'.elim
    | _ => exact h.elim
  | text i s =>
    cases b with
    | text j t =>
      cases d with
      | text k r => exact Orders.trans h h'
      | _ => exact h'.elim
    | _ => exact h.elim
  | _ => exact h.elim

theorem mem_of_mem_seen {c : Comparison} {args : List Value} {v : Value} (h : v ∈ c.seen args) :
    v ∈ args := by
  fun_induction seen c args with
  | case1 a b rest _ ih =>
    rcases List.mem_cons.mp h with rfl | h
    · exact List.mem_cons_self
    · exact List.mem_cons_of_mem _ (ih h)
  | case2 a b rest _ =>
    rcases List.mem_cons.mp h with rfl | h
    · exact List.mem_cons_self
    · exact List.mem_cons_of_mem _ (List.mem_cons.mpr (.inl (List.mem_singleton.mp h)))
  | case3 args _ => exact h

end Comparison

/-- A comparison of several numbers, or of several texts, holds exactly if it holds of any two of
them in their order.

Numbers are compared as points of the line, of which NaN is none, so nothing holds of it.  Texts are
compared as lists of code points, character by character; the bytes that encode them in UTF-8 have
the same order. -/
theorem comparison_of_all_pairs (c : Comparison) {C : OperandClass} {args : List Value}
    (hC : C ≠ .lists) (hargs : ∀ v ∈ args, v.operandClass? = some C) (next : ObjectId) :
    (∃ b : Bool, (Operator.compare c).fold args next = (.ok (.ofBool b), next) ∧
      (b = true ↔ ∀ i j (hij : i < j) (hj : j < args.length), c.HoldsOf args[i] args[j])) ∧
    ∀ s t : String,
      c.Orders (codePoints s) (codePoints t) ↔ c.Orders (utf8Bytes s) (utf8Bytes t) := by
  constructor
  · have hseen : (Operator.compare c).TakesAs C (c.seen args) :=
      ⟨by cases C <;> first | rfl | exact absurd rfl hC, fun v hv => hargs v (c.mem_of_mem_seen hv)⟩
    have htrans : IsTrans Value c.HoldsOf := ⟨fun _ _ _ => .trans⟩
    -- neighbours suffice, for the relation is transitive
    have hpairs : args.IsChain (fun a b => c.relates a b = true) ↔
        ∀ i j (hij : i < j) (hj : j < args.length), c.HoldsOf args[i] args[j] := by
      simp only [c.relates_iff]
      rw [List.isChain_iff_pairwise, List.pairwise_iff_getElem]
      exact ⟨fun h i j hij hj => h i j _ hj hij, fun h i j _ hj hij => h i j hij hj⟩
    rw [← hpairs]
    rcases Comparison.compareChain_of_takesAs hseen with ⟨hchain, hfold⟩ | ⟨hchain, hfold⟩
    · exact ⟨true, by rw [Operator.fold, hfold]; rfl, iff_of_true rfl hchain⟩
    · exact ⟨false, by rw [Operator.fold, hfold]; rfl, iff_of_false Bool.false_ne_true hchain⟩
  · intro s t
    rw [utf8Bytes_eq, utf8Bytes_eq]
    exact (c.orders_map strictMono_encoded _ _).symm

/-- The lower end, the two zeros and a one go up, as any two of them do; NaN does not go up to
itself. -/
theorem comparison_of_all_pairs_of_zeros :
    let args : List Value :=
      [.number (Number.infinity true), .number 0.0, .number (-0.0), .number 1.0]
    let nans : List Value := [.number Number.nan, .number Number.nan]
    ((∀ v ∈ args, v.operandClass? = some .numbers) ∧
      (Operator.compare .le).fold args 0 = (.ok .t, 0) ∧
      ∀ i j (hij : i < j) (hj : j < args.length), Comparison.le.HoldsOf args[i] args[j]) ∧
    (∀ v ∈ nans, v.operandClass? = some .numbers) ∧
      (Operator.compare .le).fold nans 0 = (.ok .nil, 0) ∧
      ¬ Comparison.le.HoldsOf nans[0] nans[1] := by
  intro args nans
  have hargs : ∀ v ∈ args, v.operandClass? = some .numbers := by
    simp [args, Value.operandClass?]
  have hnans : ∀ v ∈ nans, v.operandClass? = some .numbers := by
    simp [nans, Value.operandClass?]
  obtain ⟨⟨b, hb, hpairs⟩, -⟩ := comparison_of_all_pairs .le (by decide) hargs 0
  obtain ⟨⟨b', hb', hpairs'⟩, -⟩ := comparison_of_all_pairs .le (by decide) hnans 0
  have hup : Operator.compareChain .le args = .ok .t := by decide +kernel
  have hnot : Operator.compareChain .le nans = .ok .nil := by decide +kernel
  rw [Operator.fold, hup] at hb
  rw [Operator.fold, hnot] at hb'
  cases b <;> cases hb
  cases b' <;> cases hb'
  refine ⟨⟨hargs, by rw [Operator.fold, hup]; rfl, hpairs.mp rfl⟩, hnans,
    by rw [Operator.fold, hnot]; rfl,
    fun h => Bool.false_ne_true (hpairs'.mpr fun i j hij hj => ?_)⟩
  have hj : j < 2 := hj
  obtain ⟨rfl, rfl⟩ : i = 0 ∧ j = 1 := by omega
  exact h

end PocketLisp
