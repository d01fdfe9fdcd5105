/-
PocketLisp/Proofs/Sequences.lean

Texts and lists as sequences.

The elements of a text are its clusters, which every operation finds on its
own.  As nothing is lost when a text is cut, elements and parts of a text can be
put together again (`texts_are_sequences`).  Places in a text are given by
numbers; `Value.IsNat` says which of them are natural numbers, and the largest
index stands for all larger ones, which are behind the end of every text.

A list is reversed element by element, and so is a text, but a reversed text is
cut anew.  Its clusters are those of the text in the opposite order exactly if
no two neighbours join (`clusters_reverse_iff`).  Then a text that is reversed
twice is the text again (`reversed_twice`), else it need not be, and the
reversed text may be shorter (`reversal_joins`).
-/
import PocketLisp.Proofs.Clusters
import PocketLisp.Proofs.Indices
import PocketLisp.Proofs.NormalForm
import PocketLisp.Proofs.Operands
import PocketLisp.Proofs.ParameterLists

namespace PocketLisp

/-! ### The clusters of a text -/

section Clusters

open Text.Cluster

variable (content : String)

theorem toList_join_map_ofList (gs : List (List Char)) :
    (String.join (gs.map String.ofList)).toList = gs.flatten := by
  rw [String.toList_join, List.flatMap_map, ← List.flatMap_id]
  exact congrArg gs.flatMap (funext fun g => String.toList_ofList)

@[simp] theorem join_clusters : String.join (clusters content) = content := by
  rw [← String.toList_inj, clusters, toList_join_map_ofList, flatten_split]

theorem ofList_injective : Function.Injective String.ofList := fun g h heq => by
  rw [← String.toList_ofList (l := g), heq, String.toList_ofList]

/-- Two clusters stay apart in the opposite order. -/
theorem clusters_append_ofList (g h : List Char) :
    clusters (String.ofList g ++ String.ofList h) = [String.ofList g, String.ofList h] ↔
      Apart g h := by
  rw [clusters, String.toList_append, String.toList_ofList, String.toList_ofList, Apart]
  exact ofList_injective.list_map.eq_iff' rfl

theorem split_self_of_mem_reverse : ∀ g ∈ (split content.toList).reverse, split g = [g] :=
  fun _ hg => split_of_mem_split (List.mem_reverse.mp hg)

/-- The clusters of the reversed text are those of the characters of the clusters in the opposite
order. -/
theorem clusters_reverse : clusters (String.join (clusters content).reverse) =
    (split (split content.toList).reverse.flatten).map String.ofList := by
  have hreverse : (clusters content).reverse = (split content.toList).reverse.map String.ofList :=
    List.map_reverse.symm
  rw [hreverse, clusters, toList_join_map_ofList]

/-- The clusters of the reversed text are those of the text exactly if no two neighbours join. -/
theorem clusters_reverse_iff :
    clusters (String.join (clusters content).reverse) = (clusters content).reverse ↔
      (clusters content).IsChain fun g h => clusters (h ++ g) = [h, g] := by
  rw [clusters_reverse, clusters, ← List.map_reverse, ofList_injective.list_map.eq_iff,
    split_flatten_iff (split_self_of_mem_reverse content), List.isChain_reverse, List.isChain_map]
  simp only [clusters_append_ofList]

theorem length_clusters_reverse_le :
    (clusters (String.join (clusters content).reverse)).length ≤ (clusters content).length := by
  have hle := length_split_flatten_le (split_self_of_mem_reverse content)
  rw [List.length_reverse] at hle
  rwa [clusters_reverse, List.length_map, clusters, List.length_map]

end Clusters

/-! ### Lists -/

namespace Value

variable {v : Value}

/-- A proper list has no other items than the first components of its cells. -/
theorem items_eq_cars (h : v.finalTail = .nil) : v.items = v.cars := by
  rw [items_eq (isList_of_finalTail h), h]
  exact List.append_nil v.cars

theorem length_of_proper (h : v.finalTail = .nil) :
    v.length = .ok (.number (Float.ofNat v.cars.length)) := by
  cases v with
  | nil => rfl
  | cons id a d =>
    show (Except.ok (number (Float.ofNat (cons id a d).items.length)) : Except Fault Value) = _
    rw [items_eq_cars h]
  | _ => cases h

theorem reverse_of_proper (h : v.finalTail = .nil) (next : ObjectId) :
    ∃ w n, v.reverse next = (.ok w, n) ∧ w.cars = v.cars.reverse ∧ w.finalTail = .nil := by
  -- a text, which alone is reversed in another way, is no proper list
  have hreverse : v.reverse = (do Fresh.list (← v.listItems).reverse) := by
    cases v with
    | text => cases h
    | _ => rfl
  rw [hreverse, listItems, isList_of_finalTail h, items_eq_cars h]
  exact ⟨_, _, rfl, chain_parts next v.cars.reverse rfl⟩

end Value

/-! ### Reversal -/

/-- What reversing a sequence twice gives.

For a proper list, these are the elements of the list in the order of the list.  For a text, these
are its characters, if no two neighbouring clusters join when they change places: exactly then the
reversed text has the same clusters in the opposite order.  A reversed sequence is as long as the
sequence; a reversed text in which clusters join is not longer. -/
theorem reversed_twice :
    (∀ (v : Value) (next : ObjectId), v.finalTail = .nil → ∃ w n u m,
      v.reverse next = (.ok w, n) ∧ w.reverse n = (.ok u, m) ∧
        (u.cars = v.cars ∧ u.finalTail = .nil) ∧ w.length = v.length) ∧
    ∀ (id : ObjectId) (content : String) (next : ObjectId), ∃ reversed,
      (Value.text id content).reverse next = (.ok (.text next reversed), next + 1) ∧
      (clusters reversed).length ≤ (clusters content).length ∧
      (clusters reversed = (clusters content).reverse ↔
        (clusters content).IsChain fun g h => clusters (h ++ g) = [h, g]) ∧
      (((clusters content).IsChain fun g h => clusters (h ++ g) = [h, g]) →
        (Value.text next reversed).reverse (next + 1) =
          (.ok (.text (next + 1) content), next + 2) ∧
        (Value.text next reversed).length = (Value.text id content).length) := by
  refine ⟨fun v next hproper => ?_, fun id content next => ?_⟩
  · obtain ⟨w, n, hw, hcars, htail⟩ := Value.reverse_of_proper hproper next
    obtain ⟨u, m, hu, hcars', htail'⟩ := Value.reverse_of_proper htail n
    refine ⟨w, n, u, m, hw, hu, ⟨?_, htail'⟩, ?_⟩
    · rw [hcars', hcars, List.reverse_reverse]
    · rw [Value.length_of_proper htail, Value.length_of_proper hproper, hcars, List.length_reverse]
  · -- a text is reversed cluster by cluster, and the pieces may join in another way
    refine ⟨String.join (clusters content).reverse, rfl, length_clusters_reverse_le content,
      clusters_reverse_iff content, fun hapart => ?_⟩
    have hclusters := (clusters_reverse_iff content).mpr hapart
    constructor
    · show (Fresh.text _) (next + 1) = _
      rw [hclusters, List.reverse_reverse, join_clusters]
      rfl
    · rw [Value.length, Value.length, hclusters, List.length_reverse]

/-- A list of two elements, and a text of which a cluster has two characters. -/
theorem reversed_twice_of_two :
    let v : Value := .cons 0 .t (.cons 1 (.number 2.0) .nil)
    let content := "ae\u0301"
    (∃ w n u m, v.reverse 2 = (.ok w, n) ∧ w.reverse n = (.ok u, m) ∧ u.cars = [.t, .number 2.0]) ∧
    ∃ reversed, (Value.text 2 content).reverse 3 = (.ok (.text 3 reversed), 4) ∧
      (Value.text 3 reversed).reverse 4 = (.ok (.text 4 content), 5) := by
  intro v content
  obtain ⟨w, n, u, m, hw, hu, ⟨hcars, -⟩, -⟩ := reversed_twice.1 v 2 rfl
  obtain ⟨reversed, hreversed, -, -, htwice⟩ := reversed_twice.2 2 content 3
  exact ⟨⟨w, n, u, m, hw, hu, hcars⟩, reversed, hreversed, (htwice (by decide +kernel)).1⟩

/-- A line feed and a carriage return are two clusters, and one in the opposite order. -/
theorem reversal_joins :
    let v : Value := .text 0 "\n\r"
    ∃ w u, v.reverse 1 = (.ok w, 2) ∧ w.reverse 2 = (.ok u, 3) ∧
      v.length = .ok (.number (Float.ofNat 2)) ∧ w.length = .ok (.number (Float.ofNat 1)) ∧
      u.equal v = false := by
  have hjoined : String.join (clusters "\n\r").reverse = "\r\n" := by decide +kernel
  have hkept : String.join (clusters "\r\n").reverse = "\r\n" := by decide +kernel
  refine ⟨.text 1 "\r\n", .text 2 "\r\n", ?_, ?_, by decide +kernel, by decide +kernel, by decide⟩
  · exact congrArg (fun content => (Except.ok (Value.text 1 content), 2)) hjoined
  · exact congrArg (fun content => (Except.ok (Value.text 2 content), 3)) hkept

/-! ### Elements -/

/-- The text of the clusters from one place to another. -/
def part (content : String) (i j : Nat) : String := String.join (((clusters content).take j).drop i)

theorem Value.exists_text_of_bare {v : Value} {content : String}
    (h : v.bare = .text 0 content) : ∃ id, v = .text id content := by
  cases v with
  | text id content' =>
    cases h
    exact ⟨id, rfl⟩
  | _ => cases h

/-- New texts are the elements of a text, one for every cluster. -/
theorem mapM_text (pieces : List String) (next : ObjectId) :
    ∃ vs, pieces.mapM Fresh.text next = (.ok vs, next + pieces.length) ∧
      vs.map Value.bare = pieces.map (Value.text 0) := by
  induction pieces generalizing next with
  | nil => exact ⟨[], rfl, rfl⟩
  | cons piece pieces ih =>
    obtain ⟨vs, hvs, hbare⟩ := ih (next + 1)
    refine ⟨.text next piece :: vs, ?_, congrArg (Value.text 0 piece :: ·) hbare⟩
    rw [List.mapM_cons, Fresh.bind_of_ok (show Fresh.text piece next = (.ok _, next + 1) from rfl),
      Fresh.bind_of_ok hvs, List.length_cons, Nat.add_assoc, Nat.add_comm 1]
    rfl

/-- The function that an operator is bound to. -/
def Operator.native (op : Operator) (id : ObjectId) : Native := ⟨id, op.name, op.arity, .fold op⟩

/-- Texts that are added one after another are joined. -/
theorem foldlM_texts (rounds calls : Nat) (id : ObjectId) (env : FrameId) (i : ObjectId)
    (content : String) (pieces : List String) {vs : List Value}
    (hvs : vs.map Value.bare = pieces.map (Value.text 0)) (s : Store) :
    ∃ j next, vs.foldlM (fun v w => run rounds (calls + 1)
        (.apply (.native (Operator.native (.calculate .add) id)) [v, w] env))
        (Value.text i content) s =
      (.ok (.text j (content ++ String.join pieces)), { s with nextId := next }) := by
  induction pieces generalizing i content vs s with
  | nil =>
    obtain rfl := List.map_eq_nil_iff.mp hvs
    exact ⟨i, s.nextId, by simp⟩
  | cons piece pieces ih =>
    -- the sum so far is one more text, with a number of its own
    obtain ⟨v, rest, rfl, hv, hbare⟩ := List.map_eq_cons_iff.mp hvs
    obtain ⟨k, rfl⟩ := Value.exists_text_of_bare hv
    have happly : run rounds (calls + 1) (.apply (.native (Operator.native (.calculate .add) id))
        [.text i content, .text k piece] env) s =
        (.ok (.text s.nextId (content ++ piece)), { s with nextId := s.nextId + 1 }) := rfl
    obtain ⟨j, next, hrest⟩ :=
      ih s.nextId (content ++ piece) hbare { s with nextId := s.nextId + 1 }
    refine ⟨j, next, ?_⟩
    rw [List.foldlM_cons, Run.bind_apply_ok happly, hrest, String.join_cons, String.append_assoc]

/-- The elements of a text, folded by `+`, are the text. -/
theorem reduce_add (rounds calls : Nat) (plus : ObjectId) (name : String) (env : FrameId)
    (id : ObjectId) {content : String} (h : 0 < (clusters content).length) (s : Store) :
    ∃ i next, Run.primitive (run rounds (calls + 1)) rounds name .reduce
        [.function (.native (Operator.native (.calculate .add) plus)), .text id content] env s =
      (.ok (.text i content), { s with nextId := next }) := by
  obtain ⟨vs, hvs, hbare⟩ := mapM_text (clusters content) s.nextId
  have helements : Run.ofFresh (Value.text id content).elements s =
      (.ok vs, { s with nextId := s.nextId + (clusters content).length }) := by
    have hclusters : (Value.text id content).elements s.nextId = _ := hvs
    rw [Run.ofFresh_apply, hclusters]
    rfl
  -- the fold starts at the first cluster
  obtain ⟨piece, pieces, hpieces⟩ := List.exists_cons_of_length_pos h
  rw [hpieces] at hbare
  obtain ⟨v, rest, rfl, hv, hrest⟩ := List.map_eq_cons_iff.mp hbare
  obtain ⟨k, rfl⟩ := Value.exists_text_of_bare hv
  obtain ⟨i, next, hfold⟩ := foldlM_texts rounds calls plus env k piece pieces hrest
    { s with nextId := s.nextId + (clusters content).length }
  refine ⟨i, next, ?_⟩
  show (Run.ofFresh (Value.text id content).elements >>= fun elements =>
    Run.reduceElements (run rounds (calls + 1)) _ env elements) s = _
  rw [Run.bind_apply_ok helements, Run.reduceElements, hfold, ← String.join_cons, ← hpieces,
    join_clusters]

/-! ### Parts of a text -/

namespace Value

/-- A value is a natural number. -/
def IsNat (v : Value) (n : Nat) : Prop := ∃ x, v = .number x ∧ Number.rational? x = some (n : ℚ)

variable {v first last : Value} {n i j : Nat} {content : String}

theorem isNat_ofNat (h : n < 2 ^ 53) : (number (Float.ofNat n)).IsNat n :=
  ⟨_, rfl, Number.rational?_ofNat h⟩

theorem expectIndex_of_isNat (h : v.IsNat n) (operator : String) :
    v.expectIndex operator = .ok (min Number.maxIndex n) := by
  obtain ⟨x, rfl, hx⟩ := h
  have hindex := Number.index?_eq_some_iff.mpr ⟨n, hx, rfl⟩
  simp only [expectIndex, hindex]

theorem expectIndex_of_not_isNat (h : ∀ n, ¬ v.IsNat n) (operator : String) :
    v.expectIndex operator = .error (.refused operator [v]) := by
  cases v with
  | number x =>
    have hindex : Number.index? x = none := by
      cases hx : Number.index? x with
      | none => rfl
      | some k =>
        obtain ⟨n, hn, -⟩ := Number.index?_eq_some_iff.mp hx
        exact absurd ⟨x, rfl, hn⟩ (h n)
    simp only [expectIndex, hindex]
  | _ => rfl

/-- The places between which arguments delimit a part of a text of so many clusters: without a
second argument the part goes on to the end. -/
inductive Delimits (size : Nat) : List Value → Nat → Nat → Prop
  | toEnd {first : Value} {i : Nat} : first.IsNat i → Delimits size [first] i size
  | between {first last : Value} {i j : Nat} :
    first.IsNat i → last.IsNat j → Delimits size [first, last] i j

variable {args : List Value} (id next : ObjectId)

/-- A part is cut out if its ends are in order and within the text. -/
theorem substring_of_delimits (hsize : (clusters content).length < Number.maxIndex)
    (h : Delimits (clusters content).length args i j) :
    substring (.text id content :: args) next =
      if i ≤ j ∧ j ≤ (clusters content).length then (.ok (.text next (part content i j)), next + 1)
      else (.error (.refused "substring" (.text id content :: args)), next) := by
  -- larger indices count as the largest one, which is behind the end of the text
  have hcut (start stop : Nat) (hstart : start = min Number.maxIndex i)
      (hstop : stop = min Number.maxIndex j) :
      (if stop < start ∨ (clusters content).length < stop then
          throw (.refused "substring" (.text id content :: args))
        else Fresh.text (part content start stop) : Fresh Value) next =
      if i ≤ j ∧ j ≤ (clusters content).length then (.ok (.text next (part content i j)), next + 1)
      else (.error (.refused "substring" (.text id content :: args)), next) := by
    by_cases hends : i ≤ j ∧ j ≤ (clusters content).length
    · obtain rfl : start = i := by omega
      obtain rfl : stop = j := by omega
      rw [if_pos hends, if_neg (by omega)]
      rfl
    · rw [if_neg hends, if_pos (by omega)]
      rfl
  cases h with
  | toEnd hi =>
    rw [substring]
    simp only [expectIndex_of_isNat hi, expectText]
    exact hcut _ _ rfl (by omega)
  | between hi hj =>
    rw [substring]
    simp only [expectIndex_of_isNat hi, expectIndex_of_isNat hj, expectText]
    exact hcut _ _ rfl rfl

/-- Nothing is cut out if an end is no natural number. -/
theorem substring_of_not_delimits (hargs : args.length = 1 ∨ args.length = 2)
    (h : ∀ i j, ¬ Delimits (clusters content).length args i j) :
    ∃ vs, substring (.text id content :: args) next = (.error (.refused "substring" vs), next) := by
  match args, hargs with
  | [first], _ =>
    have hfirst := expectIndex_of_not_isNat fun i hi => h i _ (.toEnd hi)
    refine ⟨[first], ?_⟩
    rw [substring]
    simp only [hfirst, expectText]
    rfl
  | [first, last], _ =>
    rw [substring]
    -- the first index that is none is the one refused
    by_cases hfirst : ∃ i, first.IsNat i
    · obtain ⟨i, hi⟩ := hfirst
      have hlast := expectIndex_of_not_isNat fun j hj => h i j (.between hi hj)
      refine ⟨[last], ?_⟩
      simp only [expectIndex_of_isNat hi, hlast, expectText]
      rfl
    · refine ⟨[first], ?_⟩
      simp only [expectIndex_of_not_isNat (not_exists.mp hfirst), expectText]
      rfl

end Value

/-- The parts of a text before, between and behind two places are the text. -/
theorem part_append (content : String) {i j : Nat} (hij : i ≤ j) :
    part content 0 i ++ part content i j ++ part content j (clusters content).length = content := by
  have htake : (clusters content).take i = ((clusters content).take j).take i := by
    rw [List.take_take, Nat.min_eq_left hij]
  rw [part, part, part, List.drop_zero, List.take_length, htake, ← String.join_append,
    List.take_append_drop, ← String.join_append, List.take_append_drop, join_clusters]

/-- What the operations on sequences make of a text.

All of them take it for the same clusters, which together are the text.  An index counts up to
`Number.maxIndex`, which is more clusters than a text can have.

* Its length is their number, and its elements are as many new texts.
* Added one after another, the elements are the text again.
* A part is the text of the clusters between two places, the second of which may be left out for
  the end.  It is cut out if the places are natural numbers, in order and not behind the end, and
  refused in all other cases.
* The parts before, between and behind two places, added up, are the text again. -/
theorem texts_are_sequences (id : ObjectId) (content : String)
    (hsize : (clusters content).length < Number.maxIndex) :
    let s := Value.text id content
    let n := (clusters content).length
    (∃ x, s.length = .ok x ∧ (n < 2 ^ 53 → x.IsNat n)) ∧
    ((∀ next, ∃ vs, s.elements next = (.ok vs, next + n) ∧ vs.length = n ∧
      vs.map Value.bare = (clusters content).map (Value.text 0)) ∧
      String.join (clusters content) = content) ∧
    (0 < n → ∀ (rounds calls : Nat) (plus : ObjectId) (name : String) (env : FrameId) (t : Store),
      ∃ v next, Run.primitive (run rounds (calls + 1)) rounds name .reduce
          [.function (.native (Operator.native (.calculate .add) plus)), s] env t =
        (.ok v, { t with nextId := next }) ∧ v.equal s = true) ∧
    (∀ (args : List Value) (next : ObjectId), args.length = 1 ∨ args.length = 2 →
      (∀ i j, Value.Delimits n args i j → i ≤ j → j ≤ n →
        Value.substring (s :: args) next = (.ok (.text next (part content i j)), next + 1)) ∧
      ((∀ i j, Value.Delimits n args i j → ¬ (i ≤ j ∧ j ≤ n)) → ∃ vs,
        Value.substring (s :: args) next = (.error (.refused "substring" vs), next))) ∧
    ∀ (zero first last : Value) (i j : Nat) (next : ObjectId), zero.IsNat 0 → first.IsNat i →
      last.IsNat j → i ≤ j → j ≤ n → ∃ x y z u m,
        Value.substring [s, zero, first] next = (.ok x, next + 1) ∧
        Value.substring [s, first, last] (next + 1) = (.ok y, next + 2) ∧
        Value.substring [s, last] (next + 2) = (.ok z, next + 3) ∧
        (Operator.calculate .add).fold [x, y, z] (next + 3) = (.ok (.text u content), m) := by
  intro s n
  have hpart {args : List Value} {i j : Nat} (next : ObjectId) (hends : Value.Delimits n args i j)
      (hij : i ≤ j) (hj : j ≤ n) :
      Value.substring (s :: args) next = (.ok (.text next (part content i j)), next + 1) := by
    rw [Value.substring_of_delimits id next hsize hends, if_pos ⟨hij, hj⟩]
  refine ⟨⟨_, rfl, Value.isNat_ofNat⟩, ⟨fun next => ?_, join_clusters content⟩, ?_, ?_, ?_⟩
  · obtain ⟨vs, hvs, hbare⟩ := mapM_text (clusters content) next
    have hlength := congrArg List.length hbare
    rw [List.length_map, List.length_map] at hlength
    exact ⟨vs, hvs, hlength, hbare⟩
  · intro hn rounds calls plus name env t
    obtain ⟨i, next, hreduce⟩ := reduce_add rounds calls plus name env id hn t
    exact ⟨_, next, hreduce, beq_self_eq_true content⟩
  · intro args next hargs
    refine ⟨fun i j hends hij hj => hpart next hends hij hj, fun hrefused => ?_⟩
    -- indices out of order or out of range, or no indices at all
    by_cases hends : ∃ i j, Value.Delimits n args i j
    · obtain ⟨i, j, hends⟩ := hends
      refine ⟨s :: args, ?_⟩
      rw [Value.substring_of_delimits id next hsize hends, if_neg (hrefused i j hends)]
    · exact Value.substring_of_not_delimits id next hargs
        fun i j h => hends ⟨i, j, h⟩
  · intro zero first last i j next hzero hfirst hlast hij hj
    refine ⟨_, _, _, next + 4, next + 5, hpart next (.between hzero hfirst) (Nat.zero_le i)
      (hij.trans hj), hpart (next + 1) (.between hfirst hlast) hij hj,
      hpart (next + 2) (.toEnd hlast) hj (Nat.le_refl n), ?_⟩
    have hjoined := part_append content hij
    exact congrArg (fun c => (Except.ok (Value.text (next + 4) c), next + 5)) hjoined

/-- A text of three clusters, one of them with two characters: its elements added up, its second
cluster, and what would end behind the text. -/
theorem texts_are_sequences_of_accent :
    let s : Value := .text 0 "ae\u0301b"
    let one : Value := .number (Float.ofNat 1)
    (∃ v next, Run.primitive (run 0 1) 0 "reduce" .reduce
        [.function (.native (Operator.native (.calculate .add) 1)), s] 0 (.empty .empty) =
      (.ok v, { Store.empty .empty with nextId := next }) ∧ v.equal s = true) ∧
    Value.substring [s, one, .number (Float.ofNat 2)] 2 = (.ok (.text 2 "e\u0301"), 3) ∧
    ∃ vs, Value.substring [s, one, .number (Float.ofNat 4)] 2 =
      (.error (.refused "substring" vs), 2) := by
  intro s one
  have hthree : (clusters "ae\u0301b").length = 3 := by decide +kernel
  have hsize : (clusters "ae\u0301b").length < Number.maxIndex := by decide +kernel
  have hone : one.IsNat 1 := Value.isNat_ofNat (by norm_num)
  obtain ⟨-, -, hreduce, hsubstring, -⟩ := texts_are_sequences 0 "ae\u0301b" hsize
  refine ⟨hreduce (by omega) 0 0 1 "reduce" 0 _, ?_, ?_⟩
  · have htwo := Value.isNat_ofNat (n := 2) (by norm_num)
    have hpart : part "ae\u0301b" 1 2 = "e\u0301" := by decide +kernel
    rw [← hpart]
    exact (hsubstring _ 2 (.inr rfl)).1 1 2 (.between hone htwo) (by omega) (by omega)
  · refine (hsubstring _ 2 (.inr rfl)).2 fun i j hends => ?_
    cases hends with
    | between _ hlast =>
      obtain ⟨x, hx, hj⟩ := hlast
      cases hx
      rw [Number.rational?_ofNat (by norm_num), Option.some.injEq, Nat.cast_inj] at hj
      omega

end PocketLisp
