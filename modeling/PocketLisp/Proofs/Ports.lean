/-
PocketLisp/Proofs/Ports.lean

Tables of ports, whatever runs.

A port is in its table from when it is opened until it is closed, except while
it is being read.  What runs in between may open, read and close ports, also
while another port is being read.

That a run does not use a port is said by a second run, in which operations on
that port are not carried out (`runStopping`): it does what the first one does.
For a port that is not open, these operations can only be refused, so nothing
changes if they are refused in advance (`run_of_closed`); this holds of a port
that is being read while the form is read (`form_held`).  An open port stays
where it is if the run without operations on it goes through (`run_leaving`),
and open if the run without closing it does (`run_untilClosed`).

Main result: in all stores that are reached every port is in its table once and
numbers are given out once, and from there all runs treat ports so, and opening,
reading and closing do what they are for (`ports_orderly`).
-/
import PocketLisp.Proofs.Forward
import PocketLisp.Proofs.Management
import PocketLisp.Proofs.Rounding

namespace PocketLisp

/-! ### Numbers of ports -/

/-- The number of a port names it. -/
theorem Number.index?_ofNat {n : Nat} (hn : 0 < n) (hlt : n < 2 ^ 53) :
    index? (Float.ofNat n) = some n := by
  obtain ⟨k, hc, -, hvalue⟩ := exists_canonical hn hlt
  have hrounds : RoundsTo (n * 10 ^ (0 : Int)) (n * 2 ^ k) (-k) := by
    rw [zpow_zero, mul_one, hvalue]
    exact .self _ _
  -- a small whole number is rounded to itself, with trailing zeros in its significand
  have hexact : exact (Float.ofNat n) = .finite .positive (n * 2 ^ k) (-k) hc.pos := by
    rw [← exact_ofModel_pack hc .positive, ← ofScientific_eq hc hrounds]
    rfl
  rw [index?, isWhole, hexact]
  have hpow : (Nat.pow 2 (- -(k : Int)).toNat) = 2 ^ k := by rw [neg_neg]; rfl
  have hsmall : n ≤ maxIndex := hlt.le.trans (by decide)
  have hwhole : (if 0 ≤ (-k : Int) then n * 2 ^ k * Nat.pow 2 (-k : Int).toNat
      else n * 2 ^ k / 2 ^ k) = n := by
    split
    · obtain rfl : k = 0 := by omega
      simp
    · exact Nat.mul_div_cancel _ (Nat.two_pow_pos k)
  simp only [hpow, Nat.mul_mod_left, beq_self_eq_true, Bool.or_true, Bool.not_true, hwhole,
    Nat.min_eq_right hsmall]
  rfl

/-! ### One table -/

namespace PortTable

variable {t : PortTable} {port other : Nat} {source : Source} {entry : Option Source}

/-- Every port is in the table once, and no higher numbers have been given out than were opened. -/
structure Numbered (t : PortTable) : Prop where
  nodup : (t.ports.map Prod.fst).Nodup
  le : ∀ port ∈ t.ports.map Prod.fst, port ≤ t.opened

/-- A number has been given out, and this is what the table has for it. -/
structure Has (t : PortTable) (port : Nat) (entry : Option Source) : Prop where
  given : port ≤ t.opened
  source? : t.source? port = entry

theorem source?_eq_none_iff : t.source? port = none ↔ port ∉ t.ports.map Prod.fst := by
  rw [source?, List.lookup_eq_none_iff]
  constructor
  · intro h hmem
    obtain ⟨p, hp, rfl⟩ := List.mem_map.mp hmem
    exact absurd (h p hp) (by simp)
  · intro h p hp
    exact bne_iff_ne.mpr fun heq => h (List.mem_map.mpr ⟨p, hp, heq.symm⟩)

theorem source?_cons (port other : Nat) (source : Source) (ports : List (Nat × Source)) (n : Nat) :
    source? ⟨n, (other, source) :: ports⟩ port =
      if port = other then some source else source? ⟨n, ports⟩ port := by
  rw [source?, List.lookup_cons]
  by_cases h : port = other
  · rw [if_pos h, beq_iff_eq.mpr h]
  · rw [if_neg h, beq_eq_false_iff_ne.mpr h]
    rfl

theorem source?_openOn (t : PortTable) (source : Source) (port : Nat) :
    (t.openOn source).2.source? port =
      if port = t.opened + 1 then some source else t.source? port :=
  source?_cons ..

theorem source?_putBack (t : PortTable) (other : Nat) (source : Source) (port : Nat) :
    (t.putBack other source).source? port =
      if port = other then some source else t.source? port :=
  source?_cons ..

theorem source?_remove (t : PortTable) (other port : Nat) :
    (t.remove other).source? port = if port = other then none else t.source? port := by
  obtain ⟨n, ports⟩ := t
  rw [remove]
  induction ports with
  | nil => simp [source?]
  | cons p ports ih =>
    obtain ⟨q, source⟩ := p
    rw [List.filter_cons, source?_cons]
    -- an entry of the removed port goes with it, whatever follows
    by_cases hq : q = other
    · rw [if_neg (by simp [hq]), ih, hq]
      split <;> rfl
    · rw [if_pos (by simpa using hq), source?_cons, ih]
      by_cases hport : port = q
      · rw [if_pos hport, if_pos hport, if_neg (hport ▸ hq)]
      · rw [if_neg hport, if_neg hport]

/-! #### Entries -/

theorem Has.openOn (h : t.Has port entry) (source : Source) :
    (t.openOn source).2.Has port entry := by
  have hgiven := h.given
  refine ⟨Nat.le_succ_of_le hgiven, ?_⟩
  rw [source?_openOn, if_neg (by omega), h.source?]

theorem Has.remove (h : t.Has port entry) (hne : other ≠ port) : (t.remove other).Has port entry :=
  ⟨h.given, by rw [source?_remove, if_neg (Ne.symm hne), h.source?]⟩

theorem Has.putBack (h : t.Has port entry) (hne : other ≠ port) (source : Source) :
    (t.putBack other source).Has port entry :=
  ⟨h.given, by rw [source?_putBack, if_neg (Ne.symm hne), h.source?]⟩

/-! #### Numbered tables -/

theorem numbered_empty : empty.Numbered := ⟨List.nodup_nil, nofun⟩

theorem Numbered.given (h : t.Numbered) (hs : t.source? port = some source) : port ≤ t.opened := by
  by_contra hgt
  have hnone : t.source? port = none := source?_eq_none_iff.mpr fun hmem => hgt (h.le port hmem)
  rw [hs] at hnone
  cases hnone

theorem Numbered.openOn (h : t.Numbered) (source : Source) : (t.openOn source).2.Numbered := by
  have hnew : t.opened + 1 ∉ t.ports.map Prod.fst := fun hmem => by
    have := h.le _ hmem
    omega
  refine ⟨List.nodup_cons.mpr ⟨hnew, h.nodup⟩, fun port hport => ?_⟩
  rcases List.mem_cons.mp hport with rfl | hport
  · exact Nat.le_refl _
  · exact Nat.le_succ_of_le (h.le port hport)

theorem Numbered.remove (h : t.Numbered) (port : Nat) : (t.remove port).Numbered := by
  have hsublist : ((t.remove port).ports.map Prod.fst).Sublist (t.ports.map Prod.fst) :=
    List.filter_sublist.map _
  exact ⟨h.nodup.sublist hsublist, fun other hother => h.le other (hsublist.subset hother)⟩

/-- A port is put back where it is not in the table. -/
theorem Numbered.putBack (h : t.Numbered) (hport : t.Has port none) (source : Source) :
    (t.putBack port source).Numbered := by
  have hnew : port ∉ t.ports.map Prod.fst := source?_eq_none_iff.mp hport.source?
  refine ⟨List.nodup_cons.mpr ⟨hnew, h.nodup⟩, fun other hother => ?_⟩
  rcases List.mem_cons.mp hother with rfl | hother
  · exact hport.given
  · exact h.le other hother

end PortTable

/-! ### All tables -/

namespace Store

theorem portTable_modifyPorts (s : Store) (table : Nat) (change : PortTable → PortTable) (k : Nat) :
    (s.modifyPorts table change).portTable k =
      if table = k ∧ k < s.portTables.size then change (s.portTable k) else s.portTable k := by
  simp only [portTable, modifyPorts, Array.getD_eq_getD_getElem?, Array.getElem?_modify]
  by_cases htable : table = k
  · subst htable
    by_cases hk : table < s.portTables.size
    · simp [hk]
    · simp [hk]
  · simp [htable]

/-- There is a table where there is an open port. -/
theorem inRange_of_source? {s : Store} {k port : Nat} {source : Source}
    (h : (s.portTable k).source? port = some source) : k < s.portTables.size := by
  by_contra hk
  rw [portTable, Array.getD_eq_getD_getElem?, Array.getElem?_eq_none (Nat.le_of_not_lt hk)] at h
  cases h

theorem portTable_modifyPorts_self {s : Store} {k : Nat} (h : k < s.portTables.size)
    (change : PortTable → PortTable) :
    (s.modifyPorts k change).portTable k = change (s.portTable k) := by
  rw [portTable_modifyPorts, if_pos ⟨rfl, h⟩]

end Store

/-- All operations on the store; those that take out and put back ports are of a kind. -/
inductive Handles (T : Nat × Nat → Prop) : Kind
  | on {α : Type} {f : Store → α × Store} : OperatesOn T f → Handles T f
  | apart {α : Type} {f : Store → α × Store} : OperatesApart f → Handles T f
  | manages {α : Type} {f : Store → α × Store} :
      Manages (fun _ => True) (fun _ => True) f → Handles T f

section

variable {α : Type} {f : Store → α × Store} {P : FrameId → Prop} {T T' : Nat × Nat → Prop}

theorem OperatesIn.portTables (h : OperatesIn P f) (s : Store) :
    (f s).2.portTables = s.portTables := by
  cases h with
  | countCall i =>
    simp only [Store.countCall]
    split <;> rfl
  | _ => rfl

theorem OperatesApart.portTables (h : OperatesApart f) (s : Store) :
    (f s).2.portTables = s.portTables := by
  cases h with
  | operates h => exact h.portTables s
  | setBusy channel i busy => rfl

/-- A new table is empty, like one that there is not. -/
theorem Manages.portTable {F : HostFunction → Prop} (h : Manages P F f) (s : Store) (k : Nat) :
    (f s).2.portTable k = s.portTable k := by
  cases h with
  | operates h => rw [Store.portTable, h.portTables, Store.portTable]
  | addPortTable =>
    simp only [Store.portTable, Store.addPortTable, Array.getD_eq_getD_getElem?,
      Array.getElem?_push]
    split
    · next hk => rw [hk, Array.getElem?_eq_none (Nat.le_refl _)]; rfl
    · rfl
  | _ => rfl

theorem Handles.mono (hT : ∀ port, T port → T' port) (h : Handles T f) : Handles T' f := by
  cases h with
  | apart h => exact .apart h
  | manages h => exact .manages h
  | on h =>
    cases h with
    | operates h => exact .on (.operates h)
    | readFile path => exact .on (.readFile path)
    | openPort table source => exact .on (.openPort table source)
    | source? h => exact .on (.source? (hT _ h))
    | remove h => exact .on (.remove (hT _ h))
    | putBack source h => exact .on (.putBack source (hT _ h))

end

theorem perform_handles {T : Nat × Nat → Prop} {α : Type} (rounds : Nat) (c : Call α)
    (hT : ∀ port, c.port? = some port → T port) :
    Composed (Handles T) fun self => perform self rounds c := by
  cases hc : c.isEmit with
  | false => exact (perform_composed_on rounds c hc hT).mono .on
  | true =>
    cases c with
    | emit channel content => exact (Composed.emit channel content).mono .apart
    | _ => cases hc

/-- What holds of a table and is kept where ports are opened, taken out and put back, holds after
every operation. -/
theorem Handles.keeps {T : Nat × Nat → Prop} {K : PortTable → Prop} {k : Nat}
    (hopen : ∀ t source, K t → K (t.openOn source).2)
    (hremove : ∀ t port, T (k, port) → K t → K (t.remove port))
    (hputBack : ∀ t port source, T (k, port) → K t → K (t.putBack port source))
    {α : Type} {f : Store → α × Store} (h : Handles T f) (s : Store)
    (hs : K (s.portTable k)) : K ((f s).2.portTable k) := by
  have hsame : (f s).2.portTable k = s.portTable k → K ((f s).2.portTable k) := fun heq =>
    heq ▸ hs
  have hmodify : ∀ table change, (table = k → K (change (s.portTable k))) →
      K ((s.modifyPorts table change).portTable k) := by
    intro table change hchange
    rw [Store.portTable_modifyPorts]
    split
    · next htable => exact hchange htable.1
    · exact hs
  -- only the operations on table k itself change it
  cases h with
  | apart h => exact hsame (by rw [Store.portTable, h.portTables, Store.portTable])
  | manages h => exact hsame (h.portTable s k)
  | on h =>
    cases h with
    | operates h => exact hsame (by rw [Store.portTable, h.portTables, Store.portTable])
    | readFile path | source? _ => exact hs
    | openPort table source =>
      refine hmodify table _ ?_
      rintro rfl
      exact hopen _ source hs
    | @remove table port hT =>
      refine hmodify table _ ?_
      rintro rfl
      exact hremove _ port hT hs
    | @putBack table port source hT =>
      refine hmodify table _ ?_
      rintro rfl
      exact hputBack _ port source hT hs

/-! ### Operations on one port -/

/-- The fault of an operation on a port that is not open. -/
def Fault.notOpen (operation : String) (port : Nat) : Fault :=
  .io operation ("port " ++ toString port ++ " is not open")

/-- The store while a port is being read. -/
def Store.holding (s : Store) (table port : Nat) : Store :=
  s.modifyPorts table fun t => t.remove port

/-- The store after a port has been read up to some place. -/
def Store.returning (s : Store) (table port : Nat) (source : Source) : Store :=
  s.modifyPorts table fun t => t.putBack port source

namespace Run.Port

variable {s : Store} {table port : Nat} {v : Value} {source : Source}

theorem take_of_closed (operation : String) (hv : v.index? = some port)
    (hs : (s.portTable table).source? port = none) :
    take table operation v s = (.error (.fault (.notOpen operation port)), s) := by
  simp only [take, Value.expectIndex_eq, hv]
  refine (bind_apply_ok (a := port) rfl).trans ((bind_apply_ok (read_apply _ s)).trans ?_)
  rw [hs]
  rfl

theorem take_of_open (operation : String) (hv : v.index? = some port)
    (hs : (s.portTable table).source? port = some source) :
    take table operation v s = (.ok (port, source), s.holding table port) := by
  simp only [take, Value.expectIndex_eq, hv]
  refine (bind_apply_ok (a := port) rfl).trans ((bind_apply_ok (read_apply _ s)).trans ?_)
  rw [hs]
  rfl

theorem take_of_not_index (operation : String) (hv : v.index? = none) :
    take table operation v s = (.error (.fault (.refused operation [v])), s) := by
  simp only [take, Value.expectIndex_eq, hv]
  rfl

end Run.Port

theorem run_native {n : Native} {args : List Value}
    (h : n.arity.check n.name args.length = .ok ()) (rounds calls : Nat) (env : FrameId) :
    run rounds (calls + 1) (.apply (.native n) args env) =
      Run.primitive (run rounds calls) rounds n.name n.body args env :=
  Run.apply_native h _ _ _

/-- Which calls read from a port or close it. -/
theorem Call.port?_apply {n : Native} {args : List Value} {env : FrameId} {k port : Nat}
    (h : (Call.apply (.native n) args env).port? = some (k, port)) :
    n.arity.check n.name args.length = .ok () ∧
      ∃ v, args = [v] ∧ v.index? = some port ∧
        ((∃ marker, n.body = .readPort k marker) ∨ n.body = .closePort k) := by
  rw [Call.port?] at h
  split at h
  · next hcheck =>
    refine ⟨hcheck, ?_⟩
    unfold Primitive.port? at h
    -- a call of the reading or closing native, with the port as its only argument
    split at h
    · next table marker v hbody =>
      obtain ⟨_, hv, heq⟩ := Option.map_eq_some_iff.mp h
      cases heq
      exact ⟨v, rfl, hv, .inl ⟨marker, hbody⟩⟩
    · next table v hbody =>
      obtain ⟨_, hv, heq⟩ := Option.map_eq_some_iff.mp h
      cases heq
      exact ⟨v, rfl, hv, .inr hbody⟩
    · cases h
  · cases h

section Functions

variable {n : Native} {v : Value} {k : Nat}

theorem run_close (hbody : n.body = .closePort k) (hcheck : n.arity.check n.name 1 = .ok ())
    (rounds calls : Nat) (env : FrameId) :
    run rounds (calls + 1) (.apply (.native n) [v] env) = Run.Port.close k v := by
  rw [run_native hcheck, hbody]
  rfl

theorem run_read {marker : Symbol} (hbody : n.body = .readPort k marker)
    (hcheck : n.arity.check n.name 1 = .ok ()) (rounds calls : Nat) (env : FrameId) :
    run rounds (calls + 1) (.apply (.native n) [v] env) =
      Run.Port.next (run rounds calls) k marker v env := by
  rw [run_native hcheck, hbody]
  rfl

theorem run_open (hbody : n.body = .openPort k) (hcheck : n.arity.check n.name 1 = .ok ())
    (rounds calls : Nat) (env : FrameId) :
    run rounds (calls + 1) (.apply (.native n) [v] env) = Run.Port.openFile k v := by
  rw [run_native hcheck, hbody]
  rfl

end Functions

/-! ### Runs that are stopped -/

/-- When calls are not carried out, and how they end then. -/
abbrev StopRule := ∀ ⦃α : Type⦄, Call α → Store → Option Stop

/-- Carries out calls as `run` does, but not those that are stopped. -/
def runStopping (rule : StopRule) (rounds : Nat) : (calls : Nat) → Recur
  | 0, _, _ => Run.unfinished
  | calls + 1, _, c => fun s =>
    match rule c s with
    | some e => (.error e, s)
    | none => c.nested (perform (runStopping rule rounds calls) rounds c) s

/-- The name under which an operation on a port fails. -/
def Primitive.portOperation : Primitive → String
  | .closePort _ => "sys:close"
  | _ => "sys:read"

/-- The name under which a call of a primitive on a port fails. -/
def Call.portOperation {α : Type} : Call α → String
  | .apply (.native n) _ _ => n.body.portOperation
  | _ => "sys:read"

/-- Whether a primitive closes ports. -/
def Primitive.isClose : Primitive → Bool
  | .closePort _ => true
  | _ => false

/-- Whether a call is one of the primitive that closes ports. -/
def Call.isClose {α : Type} : Call α → Bool
  | .apply (.native n) _ _ => n.body.isClose
  | _ => false

namespace StopRule

/-- A port is not open: reading from it and closing it fail. -/
def refusing (k port : Nat) : StopRule := fun _ c _ =>
  if c.port? = some (k, port) then some (.fault (.notOpen c.portOperation port)) else none

/-- Gives up where a port is read from or closed. -/
def leaving (k port : Nat) : StopRule := fun _ c _ =>
  if c.port? = some (k, port) then some .unfinished else none

/-- Gives up where an open port is closed. -/
def untilClosed (k port : Nat) : StopRule := fun _ c s =>
  if c.port? = some (k, port) ∧ c.isClose = true ∧ (s.portTable k).source? port ≠ none then
    some .unfinished
  else none

end StopRule

variable {α β : Type} {k port : Nat} {entry : Option Source} {source : Source} {s : Store}
  {rule : StopRule}

theorem runStopping_of_none {calls : Nat} {c : Call α} (h : rule c s = none) (rounds : Nat) :
    runStopping rule rounds (calls + 1) c s =
      c.nested (perform (runStopping rule rounds calls) rounds c) s := by
  simp only [runStopping, h]

theorem runStopping_of_some {calls : Nat} {c : Call α} {e : Stop} (h : rule c s = some e)
    (rounds : Nat) : runStopping rule rounds (calls + 1) c s = (.error e, s) := by
  simp only [runStopping, h]

/-- All other operations keep what the table has for a port. -/
theorem Handles.keeps_entry {f : Store → α × Store}
    (h : Handles (· ≠ (k, port)) f) (s : Store)
    (hs : (s.portTable k).Has port entry) : ((f s).2.portTable k).Has port entry := by
  refine h.keeps (K := fun t => t.Has port entry) (fun _ source ht => ht.openOn source) ?_ ?_ s hs
  · exact fun _ other hne ht => ht.remove fun heq => hne (by rw [heq])
  · exact fun _ other source hne ht => ht.putBack (fun heq => hne (by rw [heq])) source

/-- Calls on other ports handle other ports. -/
theorem perform_handles_others (rounds : Nat) {c : Call α} (hc : c.port? ≠ some (k, port)) :
    Composed (Handles (· ≠ (k, port))) fun self => perform self rounds c :=
  perform_handles rounds c fun _ hother heq => hc (heq ▸ hother)

/-! ### Ports that are not open -/

/-- What a call on a port that is not open does: it fails, and changes nothing. -/
theorem nested_of_closed {c : Call α} (hc : c.port? = some (k, port))
    (hs : (s.portTable k).source? port = none) (self : Recur) (rounds : Nat) :
    c.nested (perform self rounds c) s =
      (.error (.fault (.notOpen c.portOperation port)), s) := by
  -- only a native's call uses a port, and it looks the port up first
  cases c with
  | apply f args env =>
    cases f with
    | native n =>
      obtain ⟨hcheck, v, rfl, hv, hbody⟩ := Call.port?_apply hc
      show Run.apply self rounds (.native n) [v] env s = _
      rw [Run.apply_native hcheck]
      rcases hbody with ⟨marker, hbody⟩ | hbody
      all_goals
        rw [Call.portOperation, hbody]
        exact Run.bind_apply_error (Run.Port.take_of_closed _ hv hs)
    | closure c => cases hc
  | _ => cases hc

/-- A rule that stops calls on a port that is not open only, and only as they end anyway. -/
def StopRule.Idle (rule : StopRule) (k port : Nat) : Prop :=
  ∀ ⦃α : Type⦄ (c : Call α) (s : Store), (s.portTable k).source? port = none →
    rule c s = none ∨
      c.port? = some (k, port) ∧ rule c s = some (.fault (.notOpen c.portOperation port))

theorem StopRule.idle_refusing : (refusing k port).Idle k port := by
  intro α c s _
  by_cases hc : c.port? = some (k, port)
  · exact .inr ⟨hc, if_pos hc⟩
  · exact .inl (if_neg hc)

theorem StopRule.idle_untilClosed : (untilClosed k port).Idle k port :=
  fun _ _ _ hs => .inl (if_neg fun h => h.2.2 hs)

/-- A port that is not open stays so, and everything runs as if operations on it were refused. -/
theorem run_of_closed (hrule : rule.Idle k port) (rounds calls : Nat) (c : Call α) :
    Coincides (fun s => (s.portTable k).Has port none) (run rounds calls c)
      (runStopping rule rounds calls c) := by
  induction calls generalizing α with
  | zero => exact fun s hs => ⟨rfl, hs⟩
  | succ calls ih =>
    have hrun : run rounds (calls + 1) c = c.nested (perform (run rounds calls) rounds c) := rfl
    intro s hs
    -- a call on the closed port fails where the rule may stop it, any other goes on alike
    by_cases hc : c.port? = some (k, port)
    · rw [hrun, nested_of_closed hc hs.source?]
      refine ⟨?_, hs⟩
      rcases hrule c s hs.source? with hnone | ⟨-, hsome⟩
      · rw [runStopping_of_none hnone, nested_of_closed hc hs.source?]
      · exact runStopping_of_some hsome rounds
    · have hnone : rule c s = none := (hrule c s hs.source?).resolve_right fun h => hc h.1
      rw [runStopping_of_none hnone]
      refine Coincides.nested (J := fun s => (s.portTable k).Has port none) c ?_ (fun _ _ hs => hs)
        (fun _ _ hs => hs) s hs
      exact (perform_handles_others rounds hc).coincides (fun hf s hs => hf.keeps_entry s hs)
        fun c _ => ih c

/-! ### Open ports -/

/-- Changes all tables of ports. -/
def Store.mapPorts (s : Store) (g : Array PortTable → Array PortTable) : Store :=
  { s with portTables := g s.portTables }

/-- From stores with a property, the first run is unfinished, or the second run does the same, but
for a change of the tables of ports, and then the property lasts. -/
def Follows (J : Store → Prop) (g : Array PortTable → Array PortTable) (m m' : Run α) : Prop :=
  ∀ s, J s → (m s).1 = .error .unfinished ∨
    m' (s.mapPorts g) = ((m s).1, (m s).2.mapPorts g) ∧ J (m s).2

namespace Follows

variable {J : Store → Prop} {g : Array PortTable → Array PortTable} {m m' : Run α}
  {next next' : α → Run β}

protected theorem pure (a : α) : Follows J g (pure a) (pure a) := fun _ hs => .inr ⟨rfl, hs⟩

protected theorem throw (e : Stop) : Follows J g (throw e : Run α) (throw e) :=
  fun _ hs => .inr ⟨rfl, hs⟩

protected theorem bind (h : Follows J g m m') (hnext : ∀ a, Follows J g (next a) (next' a)) :
    Follows J g (m >>= next) (m' >>= next') := by
  intro s hs
  rw [Run.bind_apply, Run.bind_apply]
  rcases h s hs with hend | ⟨heq, hkept⟩
  · rcases hm : m s with ⟨e | a, t⟩ <;> rw [hm] at hend <;> cases hend
    exact .inl rfl
  · rw [heq]
    rcases hm : m s with ⟨e | a, t⟩ <;> rw [hm] at hkept
    · exact .inr ⟨rfl, hkept⟩
    · exact hnext a t hkept

protected theorem observe (h : Follows J g m m') :
    Follows J g (Run.observe m) (Run.observe m') := by
  intro s hs
  rw [Run.observe_apply, Run.observe_apply]
  rcases h s hs with hend | ⟨heq, hkept⟩
  · rcases hm : m s with ⟨e | a, t⟩ <;> rw [hm] at hend <;> cases hend
    exact .inl rfl
  · rw [heq]
    rcases hm : m s with ⟨(f | _) | a, t⟩ <;> rw [hm] at hkept
    · exact .inr ⟨rfl, hkept⟩
    · exact .inl rfl
    · exact .inr ⟨rfl, hkept⟩

/-- Levels have nothing to do with ports. -/
theorem nested (c : Call α) (h : Follows J g m m') (hdeepen : ∀ s env, J s → J (s.deepen env))
    (hrise : ∀ s realm, J s → J (s.riseIn realm)) :
    Follows J g (c.nested m) (c.nested m') := by
  intro s hs
  unfold Call.nested
  split
  · exact h s hs
  · next env _ =>
    have hfault : (s.mapPorts g).depthFault? env = s.depthFault? env := rfl
    rw [hfault]
    -- a refused step is refused on both sides, for the change spares the levels
    split
    · exact .inr ⟨rfl, hs⟩
    · rcases h (s.deepen env) (hdeepen s env hs) with hend | ⟨heq, hkept⟩
      · exact .inl hend
      · have hdeeper : (s.mapPorts g).deepen env = (s.deepen env).mapPorts g := rfl
        rw [hdeeper, heq]
        exact .inr ⟨rfl, hrise _ _ hkept⟩

/-- Where no table is changed. -/
theorem of_id (h : Follows J id m m') {s : Store} (hs : J s) :
    (m s).1 = .error .unfinished ∨ m s = m' s ∧ J (m' s).2 := by
  refine (h s hs).imp_right fun ⟨heq, hkept⟩ => ?_
  have hsame : m' s = m s := heq
  exact ⟨hsame.symm, hsame ▸ hkept⟩

end Follows

/-- A composed activity follows another if its calls do, and its operations do the same but for the
change of the tables, and keep the property. -/
theorem ComposedOf.follows {O : Kind} {C : CallKind} {J : Store → Prop}
    {g : Array PortTable → Array PortTable} {m : Recur → Run α} (h : ComposedOf O C m)
    (hO : ∀ {α : Type} {f : Store → α × Store}, O f → ∀ s, J s →
      f (s.mapPorts g) = ((f s).1, (f s).2.mapPorts g) ∧ J (f s).2) {self self' : Recur}
    (hself : ∀ {α : Type} (c : Call α), Follows J g (self c) (self' c)) :
    Follows J g (m self) (m self') := by
  induction h with
  | pure a => exact .pure a
  | throw e => exact .throw e
  | update hf =>
    intro s hs
    obtain ⟨hsame, hkept⟩ := hO hf s hs
    exact .inr ⟨congrArg (fun p : _ × Store => ((Except.ok p.1 : Except Stop _), p.2)) hsame, hkept⟩
  | call c _ => exact hself c
  | bind _ _ ih ihk => exact ih.bind ihk
  | observe _ ih => exact ih.observe

/-- What the table has for a port stays as it is in a run that neither reads from it nor closes
it. -/
theorem run_leaving (rounds calls : Nat) (c : Call α) :
    Follows (fun s => (s.portTable k).Has port entry) id
      (runStopping (.leaving k port) rounds calls c) (run rounds calls c) := by
  induction calls generalizing α with
  | zero => exact fun _ _ => .inl rfl
  | succ calls ih =>
    intro s hs
    -- the rule stops exactly the calls that could change the port's entry
    by_cases hc : c.port? = some (k, port)
    · have hrule : StopRule.leaving k port c s = some .unfinished := if_pos hc
      exact .inl (by rw [runStopping_of_some hrule])
    · have hrule : StopRule.leaving k port c s = none := if_neg hc
      rw [runStopping_of_none hrule]
      refine Follows.nested (J := fun s => (s.portTable k).Has port entry) c ?_ (fun _ _ hs => hs)
        (fun _ _ hs => hs) s hs
      exact (perform_handles_others rounds hc).follows
        (fun hf s hs => ⟨rfl, hf.keeps_entry s hs⟩) ih

/-! ### Reading -/

/-- Tables are not given up, and numbers are not given out again. -/
theorem leads_opened (k : Nat) : Leads (Handles fun _ => True) fun s t =>
    s.portTables.size ≤ t.portTables.size ∧ (s.portTable k).opened ≤ (t.portTable k).opened where
  refl s := ⟨Nat.le_refl _, Nat.le_refl _⟩
  trans h h' := ⟨Nat.le_trans h.1 h'.1, Nat.le_trans h.2 h'.2⟩
  operation {α f} h s := by
    refine ⟨?_, h.keeps (K := fun t => (s.portTable k).opened ≤ t.opened)
      (fun t _ ht => Nat.le_succ_of_le ht) (fun _ _ _ ht => ht) (fun _ _ _ _ ht => ht) s
      (Nat.le_refl _)⟩
    cases h with
    | apart h => rw [h.portTables]
    | manages h =>
      cases h with
      | operates h => rw [h.portTables]
      | addPortTable => exact (Array.size_push ..).symm ▸ Nat.le_succ _
      | _ => exact Nat.le_refl _
    | on h =>
      -- an opening counts up, and no operation takes a table away
      cases h with
      | operates h => rw [h.portTables]
      | readFile path | source? _ => exact Nat.le_refl _
      | openPort table source | remove _ | putBack source _ =>
        exact Nat.le_of_eq Array.size_modify.symm

theorem run_opened (rounds calls : Nat) (c : Call α) (s : Store) (k : Nat) :
    s.portTables.size ≤ (run rounds calls c s).2.portTables.size ∧
      (s.portTable k).opened ≤ ((run rounds calls c s).2.portTable k).opened :=
  run_leads_of (fun c => perform_handles rounds c fun _ _ => trivial) (leads_opened k)
    (fun _ _ => ⟨Nat.le_refl _, Nat.le_refl _⟩) (fun _ _ => ⟨Nat.le_refl _, Nat.le_refl _⟩)
    calls c s

theorem Composed.nextForm {T : Nat × Nat → Prop} (mode : Mode) (env : FrameId) (source : Source) :
    Composed (Handles T) fun self => self.form mode env source :=
  (ComposedOf.nextForm (P := fun _ => True) mode trivial source).forget.mono
    fun h => .on (.operates h)

namespace Run.Port

variable {v : Value} {self : Recur}

/-- What reading from an open port does. -/
theorem next_of_open (hv : v.index? = some port)
    (hs : (s.portTable k).source? port = some source) (marker : Symbol) (env : FrameId) :
    next self k marker v env s =
      if source.skip.isEmpty then
        (.ok (.symbol marker), (s.holding k port).returning k port source.skip)
      else match self.form .code (s.global env) source.skip (s.holding k port) with
        | (.ok (form, rest), t) => Run.ofExcept form (t.returning k port rest)
        | (.error e, t) => (.error e, t) := by
  rw [next, bind_apply_ok (take_of_open _ hv hs)]
  -- the port is held while a form is read from its text, and gets the rest back
  dsimp only
  split
  · rfl
  · have hglobal : (s.holding k port).global env = s.global env := rfl
    rw [bind_apply_ok (m := Run.global env) (read_apply _ _), bind_apply, hglobal]
    rcases self.form .code (s.global env) source.skip (s.holding k port) with
      ⟨e | ⟨form, rest⟩, t⟩ <;> rfl

end Run.Port

namespace Store

theorem portTable_holding (hs : (s.portTable k).source? port = some source) :
    (s.holding k port).portTable k = (s.portTable k).remove port :=
  portTable_modifyPorts_self (inRange_of_source? hs) _

theorem has_holding (hs : (s.portTable k).Has port (some source)) :
    ((s.holding k port).portTable k).Has port none := by
  rw [portTable_holding hs.source?]
  exact ⟨hs.given, by rw [PortTable.source?_remove, if_pos rfl]⟩

theorem inRange_holding (hs : (s.portTable k).source? port = some source) :
    k < (s.holding k port).portTables.size := by
  rw [holding, modifyPorts, Array.size_modify]
  exact inRange_of_source? hs

theorem portTable_returning (hk : k < s.portTables.size) (port : Nat) (source : Source) :
    (s.returning k port source).portTable k = (s.portTable k).putBack port source :=
  portTable_modifyPorts_self hk _

theorem has_returning (hk : k < s.portTables.size) (hs : (s.portTable k).Has port entry)
    (source : Source) : ((s.returning k port source).portTable k).Has port (some source) := by
  rw [portTable_returning hk]
  exact ⟨hs.given, by rw [PortTable.source?_putBack, if_pos rfl]⟩

end Store

/-- While a form is read from a port that is held, the port stays out of the table, as if
operations on it were refused; and the reading goes forward. -/
theorem form_held (hrule : rule.Idle k port) (hk : k < s.portTables.size)
    (hs : (s.portTable k).Has port none) (rounds calls : Nat) (env : FrameId) (text : Source) :
    (runStopping rule rounds calls).form .code env text s =
        (run rounds calls).form .code env text s ∧
      (((run rounds calls).form .code env text s).1 = .error .unfinished ∨
        ∃ form rest t, (run rounds calls).form .code env text s = (.ok (form, rest), t) ∧
          rest <:+ text ∧ k < t.portTables.size ∧ (t.portTable k).Has port none) := by
  -- a held port is closed to every call of the reading, so stopping those calls is no change
  obtain ⟨hsame, hkept⟩ := (Composed.nextForm .code env text).coincides
    (fun hf s hs => hf.keeps_entry s hs) (fun c _ => run_of_closed hrule rounds calls c) s hs
  have hforward := form_forward (run_forward rounds calls) .code env text s
  have hsize := ((Composed.nextForm .code env text).leads (leads_opened k)
    (fun c s => run_opened rounds calls c s k) s).1
  refine ⟨hsame, ?_⟩
  rcases hread : (run rounds calls).form .code env text s with ⟨e | ⟨form, rest⟩, t⟩
  all_goals rw [hread] at hkept hforward hsize
  · exact .inl (congrArg _ hforward)
  · exact .inr ⟨form, rest, t, rfl, hforward, Nat.lt_of_lt_of_le hk hsize, hkept⟩

/-! ### Closing -/

/-- A port is open, perhaps at a later place. -/
def Store.HasFrom (s : Store) (k port : Nat) (source : Source) : Prop :=
  ∃ rest, rest <:+ source ∧ (s.portTable k).Has port (some rest)

/-- Reading from an open port leaves it open, unless it is unfinished. -/
theorem next_untilClosed (rounds calls : Nat) {v : Value} (hv : v.index? = some port)
    (marker : Symbol) (env : FrameId) :
    Follows (fun s => s.HasFrom k port source) id
      (Run.Port.next (runStopping (.untilClosed k port) rounds calls) k marker v env)
      (Run.Port.next (run rounds calls) k marker v env) := by
  rintro s ⟨now, hnow, hs⟩
  have hmap : s.mapPorts id = s := rfl
  have hsize := Store.inRange_holding hs.source?
  have hnone := Store.has_holding hs
  have hskip : Source.skip now <:+ source := (Source.skip_suffix now).trans hnow
  rw [hmap, Run.Port.next_of_open hv hs.source?, Run.Port.next_of_open hv hs.source?]
  -- at the end of the text the marker is given, before it a form is read with the port held
  split
  · exact .inr ⟨rfl, _, hskip, Store.has_returning hsize hnone _⟩
  · obtain ⟨hsame, hread⟩ := form_held StopRule.idle_untilClosed hsize hnone rounds calls
      (s.global env) (Source.skip now)
    rw [hsame]
    rcases hread with hunfinished | ⟨form, rest, t, hread, hrest, hk, ht⟩
    · rcases hform : (run rounds calls).form .code (s.global env) (Source.skip now)
        (s.holding k port) with ⟨e | p, t⟩ <;> rw [hform] at hunfinished <;> cases hunfinished
      exact .inl rfl
    · rw [hread]
      refine .inr ⟨rfl, rest, hrest.trans hskip, ?_⟩
      have hback := Store.has_returning hk ht rest
      cases form <;> exact hback

/-- A port is open until it is closed. -/
theorem run_untilClosed (rounds calls : Nat) (c : Call α) :
    Follows (fun s => s.HasFrom k port source) id
      (runStopping (.untilClosed k port) rounds calls c) (run rounds calls c) := by
  induction calls generalizing α with
  | zero => exact fun _ _ => .inl rfl
  | succ calls ih =>
    intro s hs
    have hs' := hs
    obtain ⟨now, -, hopen⟩ := hs'
    -- a call on the port reads it or closes it, and any other leaves its entry alone
    by_cases hc : c.port? = some (k, port)
    · cases c with
      | apply f args env =>
        cases f with
        | native n =>
          obtain ⟨hcheck, v, rfl, hv, ⟨marker, hbody⟩ | hbody⟩ := Call.port?_apply hc
          · have hrule : StopRule.untilClosed k port (.apply (.native n) [v] env) s = none :=
              if_neg fun h => by
                rw [Call.isClose, hbody] at h
                exact absurd h.2.1 Bool.false_ne_true
            have hnext : ∀ self, (Call.apply (.native n) [v] env).nested
                (perform self rounds (.apply (.native n) [v] env)) =
                  Run.Port.next self k marker v env := by
              intro self
              show Run.apply self rounds (.native n) [v] env = _
              rw [Run.apply_native hcheck, hbody]
              rfl
            rw [runStopping_of_none hrule, hnext, run_read hbody hcheck]
            exact next_untilClosed rounds calls hv marker env s hs
          · have hrule : StopRule.untilClosed k port (.apply (.native n) [v] env) s =
                some .unfinished :=
              if_pos ⟨hc, by rw [Call.isClose, hbody]; rfl, by rw [hopen.source?]; nofun⟩
            exact .inl (by rw [runStopping_of_some hrule])
        | closure c => cases hc
      | _ => cases hc
    · have hrule : StopRule.untilClosed k port c s = none := if_neg fun h => hc h.1
      rw [runStopping_of_none hrule]
      refine Follows.nested (J := fun s => s.HasFrom k port source) c ?_ (fun _ _ hs => hs)
        (fun _ _ hs => hs) s hs
      refine (perform_handles_others rounds hc).follows (fun hf s hs => ⟨rfl, ?_⟩) ih
      exact hs.imp fun _ h => ⟨h.1, hf.keeps_entry s h.2⟩

/-! ### Tables stay numbered -/

namespace Store

theorem numbered_holding (h : (s.portTable k).Numbered)
    (hs : (s.portTable k).source? port = some source) :
    ((s.holding k port).portTable k).Numbered :=
  portTable_holding hs ▸ h.remove port

theorem numbered_returning (h : (s.portTable k).Numbered)
    (hport : (s.portTable k).Has port none) (source : Source) :
    ((s.returning k port source).portTable k).Numbered := by
  rw [returning, portTable_modifyPorts]
  split
  · exact h.putBack hport source
  · exact h

end Store

/-- Ports of other tables have nothing to do with the numbers of this one. -/
theorem leads_numbered (k : Nat) : Leads (Handles (·.1 ≠ k)) fun s t =>
    (s.portTable k).Numbered → (t.portTable k).Numbered where
  refl _ := id
  trans h h' := h' ∘ h
  operation h s := h.keeps (K := PortTable.Numbered) (fun _ source ht => ht.openOn source)
    (fun _ port _ ht => ht.remove port) (fun _ _ _ hne _ => absurd rfl hne) s

/-- A port that has been read is put back into a table in which it is not. -/
theorem next_numbered {rounds calls : Nat} {v : Value}
    (hcalls : ∀ {α : Type} (c : Call α) {s : Store}, (s.portTable k).Numbered →
      ((run rounds calls c s).2.portTable k).Numbered)
    (h : (s.portTable k).Numbered) (hv : v.index? = some port)
    (hs : (s.portTable k).source? port = some source) (marker : Symbol) (env : FrameId) :
    ((Run.Port.next (run rounds calls) k marker v env s).2.portTable k).Numbered := by
  have hheld := Store.numbered_holding h hs
  have hnone := Store.has_holding ⟨h.given hs, hs⟩
  rw [Run.Port.next_of_open hv hs]
  split
  · exact Store.numbered_returning hheld hnone _
  · have hkept := (Composed.nextForm (T := (·.1 ≠ k)) .code (s.global env) source.skip).leads
      (leads_numbered k) (fun c s hs => hcalls c hs) (s.holding k port) hheld
    have hsize := Store.inRange_holding hs
    obtain ⟨-, hunfinished | ⟨form, rest, t, hread, -, -, ht⟩⟩ := form_held
      StopRule.idle_refusing hsize hnone rounds calls (s.global env) source.skip
    · rcases hread : (run rounds calls).form .code (s.global env) source.skip (s.holding k port)
        with ⟨e | p, t⟩ <;> rw [hread] at hunfinished hkept <;> cases hunfinished
      exact hkept
    · -- the text given back belongs to a port that the table has numbered
      rw [hread] at hkept ⊢
      have hback := Store.numbered_returning hkept ht rest
      cases form <;> exact hback

/-- Whatever runs, every port is in the table once, and no higher numbers are in it than have been
given out. -/
theorem run_numbered (rounds calls : Nat) (c : Call α) (h : (s.portTable k).Numbered) :
    ((run rounds calls c s).2.portTable k).Numbered := by
  induction calls generalizing α s with
  | zero => exact h
  | succ calls ih =>
    show ((c.nested (perform (run rounds calls) rounds c) s).2.portTable k).Numbered
    -- a call on a port of the table, which may be closed, or one that opens or touches none
    by_cases hc : ∃ port, c.port? = some (k, port)
    · obtain ⟨port, hc⟩ := hc
      rcases hs : (s.portTable k).source? port with - | source
      · rw [nested_of_closed hc hs]
        exact h
      · cases c with
        | apply f args env =>
          cases f with
          | native n =>
            show ((run rounds (calls + 1) (.apply (.native n) args env) s).2.portTable k).Numbered
            obtain ⟨hcheck, v, rfl, hv, ⟨marker, hbody⟩ | hbody⟩ := Call.port?_apply hc
            · rw [run_read hbody hcheck]
              exact next_numbered (fun c _ hs => ih c hs) h hv hs marker env
            · rw [run_close hbody hcheck, Run.Port.close,
                Run.bind_apply_ok (Run.Port.take_of_open _ hv hs)]
              exact Store.numbered_holding h hs
          | closure c => cases hc
        | _ => cases hc
    · have hperform := perform_handles (T := (·.1 ≠ k)) rounds c
        fun other hother heq => hc ⟨other.2, heq ▸ hother⟩
      have hbody := fun t => hperform.leads (leads_numbered k) (fun c s hs => ih c hs) t
      unfold Call.nested
      split
      · exact hbody s h
      · next env _ =>
        split
        · exact h
        · exact hbody (s.deepen env) h

theorem Operation.numbered (a : Allowance) (x : Operation α) (h : (s.portTable k).Numbered) :
    ((x.run a s).2.portTable k).Numbered := by
  have hmanages : Leads (Manages (fun _ => True) fun _ => True) fun s t =>
      (s.portTable k).Numbered → (t.portTable k).Numbered :=
    ⟨(leads_numbered k).refl, (leads_numbered k).trans,
      fun hf => (leads_numbered k).operation (.manages hf)⟩
  have hreads : x.StaysIn (fun _ => True) fun _ => True := by
    cases x with
    | create _ => exact fun _ => trivial
    | subscribe _ react => exact fun content => (react content).readsIn_true
    | program p => exact p.readsIn_true
    | _ => trivial
  exact x.leads hmanages (fun c _ s hs => run_numbered _ _ c hs) hreads s h

/-- In every store that is reached, all tables of ports are numbered. -/
theorem Store.Reachable.numbered {files : FileTree} (h : Store.Reachable files s) (k : Nat) :
    (s.portTable k).Numbered := by
  induction h with
  | start => exact PortTable.numbered_empty
  | step _ a x _ _ ih => exact x.numbered a ih

/-! ### All runs -/

/-- How a run treats the ports of a table. -/
structure Orderly (k : Nat) (m : Recur → Run α) (rounds calls : Nat) (s : Store) : Prop where
  numbered : ((m (run rounds calls) s).2.portTable k).Numbered
  /-- numbers are not given out again -/
  opened : (s.portTable k).opened ≤ ((m (run rounds calls) s).2.portTable k).opened
  /-- all operations on a port that is not open fail, and it stays so -/
  closed : ∀ port, (s.portTable k).Has port none →
    m (runStopping (.refusing k port) rounds calls) s = m (run rounds calls) s ∧
    ((m (run rounds calls) s).2.portTable k).Has port none
  /-- a port is open until it is closed -/
  untilClosed : ∀ port source, (s.portTable k).Has port (some source) →
    (m (runStopping (.untilClosed k port) rounds calls) s).1 = .error .unfinished ∨
      m (runStopping (.untilClosed k port) rounds calls) s = m (run rounds calls) s ∧
      (m (run rounds calls) s).2.HasFrom k port source
  /-- and stays where it is if there are no operations on it -/
  untouched : ∀ port source, (s.portTable k).Has port (some source) →
    (m (runStopping (.leaving k port) rounds calls) s).1 = .error .unfinished ∨
      m (runStopping (.leaving k port) rounds calls) s = m (run rounds calls) s ∧
      ((m (run rounds calls) s).2.portTable k).Has port (some source)

/-- An activity that uses ports by its calls only is as orderly as these. -/
theorem orderly_of_composed {m : Recur → Run α} (hm : Composed (Handles fun _ => False) m)
    (hs : (s.portTable k).Numbered) (rounds calls : Nat) : Orderly k m rounds calls s where
  numbered := (hm.mono fun hf => hf.mono fun _ => False.elim).leads (leads_numbered k)
    (fun c _ hs => run_numbered rounds calls c hs) s hs
  opened := ((hm.mono fun hf => hf.mono fun _ => False.elim).leads (leads_opened k)
    (fun c s => run_opened rounds calls c s k) s).2
  closed _ h := hm.coincides
    (fun hf s hs => (hf.mono fun _ => False.elim).keeps_entry s hs)
    (fun c _ => run_of_closed StopRule.idle_refusing rounds calls c) s h
  untilClosed _ source h := Follows.of_id (hm.follows
    (fun hf s hs => ⟨rfl, hs.imp fun _ h =>
      ⟨h.1, (hf.mono fun _ => False.elim).keeps_entry s h.2⟩⟩)
    (fun c => run_untilClosed rounds calls c)) ⟨source, List.suffix_refl _, h⟩
  untouched _ _ h := Follows.of_id (hm.follows
    (fun hf s hs => ⟨rfl, (hf.mono fun _ => False.elim).keeps_entry s hs⟩)
    (fun c => run_leaving rounds calls c)) h

/-! ### The functions of a table -/

/-- A native function of one argument. -/
structure Native.Does (n : Native) (p : Primitive) : Prop where
  arity : n.arity = .exactly 1
  body : n.body = p

theorem Native.Does.check {n : Native} {p : Primitive} (h : n.Does p) :
    n.arity.check n.name 1 = .ok () := by
  rw [h.arity]
  rfl

/-- What opening a port comes to: it has a new number and the text of the file, and no other port
changes; or there is no such file, and no port changes. -/
def OpensPort (k : Nat) (path : String) (s : Store) (outcome : Except Stop Value × Store) : Prop :=
  let new := (s.portTable k).opened + 1
  match s.files.read path with
  | .ok content => (s.portTable k).source? new = none ∧
    ∃ t, outcome = (.ok (.number (Float.ofNat new)), t) ∧ (t.portTable k).opened = new ∧
      ∀ port, (t.portTable k).source? port =
        if port = new then some content.toList else (s.portTable k).source? port
  | .error e =>
    let fault : Fault := .io "sys:open-file-for-input" (path ++ ": " ++ e.message)
    ∃ t, outcome = (.error (.fault fault), t) ∧ t.portTables = s.portTables

/-- What reading from a port comes to.  If it is open, it is held while a form is read from it:
operations on it are refused.  Then it is back at the place that reading has reached, also if there
is no form. -/
def ReadsPort (k : Nat) (marker : Symbol) (port : Nat) (env : FrameId) (rounds calls : Nat)
    (s : Store) (outcome : Except Stop Value × Store) : Prop :=
  let held := s.holding k port
  match (s.portTable k).source? port with
  | none => outcome = (.error (.fault (.notOpen "sys:read" port)), s)
  | some source =>
    (∀ other, (held.portTable k).source? other =
      if other = port then none else (s.portTable k).source? other) ∧
    if source.skip.isEmpty then
      outcome = (.ok (.symbol marker), held.returning k port []) ∧
        ∀ other, ((held.returning k port []).portTable k).source? other =
          if other = port then some [] else (s.portTable k).source? other
    else
      match (runStopping (.refusing k port) rounds calls).form .code (s.global env) source.skip held
      with
      | (.error e, t) => e = .unfinished ∧ outcome = (.error e, t)
      | (.ok (form, rest), t) =>
        rest <:+ source.skip ∧ (t.portTable k).Has port none ∧
        outcome = Run.ofExcept form (t.returning k port rest) ∧
        ∀ other, ((t.returning k port rest).portTable k).source? other =
          if other = port then some rest else (t.portTable k).source? other

/-- What closing a port comes to. -/
def ClosesPort (k port : Nat) (s : Store) (outcome : Except Stop Value × Store) : Prop :=
  match (s.portTable k).source? port with
  | none => outcome = (.error (.fault (.notOpen "sys:close" port)), s)
  | some _ => outcome = (.ok .t, s.holding k port) ∧
    ∀ other, ((s.holding k port).portTable k).source? other =
      if other = port then none else (s.portTable k).source? other

section Functions

variable {n : Native} {env : FrameId} (rounds calls : Nat)

theorem Store.source?_holding (hs : (s.portTable k).source? port = some source) (other : Nat) :
    ((s.holding k port).portTable k).source? other =
      if other = port then none else (s.portTable k).source? other := by
  rw [portTable_holding hs, PortTable.source?_remove]

theorem Store.source?_returning (hk : k < s.portTables.size) (port : Nat) (source : Source)
    (other : Nat) : ((s.returning k port source).portTable k).source? other =
      if other = port then some source else (s.portTable k).source? other := by
  rw [portTable_returning hk, PortTable.source?_putBack]

theorem opensPort (h : (s.portTable k).Numbered) (hk : k < s.portTables.size)
    (hn : n.Does (.openPort k)) (id : ObjectId) (path : String) :
    OpensPort k path s (run rounds (calls + 1) (.apply (.native n) [.text id path] env) s) := by
  -- no port of the table has the next number
  have hfresh : (s.portTable k).source? ((s.portTable k).opened + 1) = none :=
    PortTable.source?_eq_none_iff.mpr fun hmem => absurd (h.le _ hmem) (by omega)
  rw [run_open hn.body hn.check, OpensPort]
  cases hfile : s.files.read path with
  | ok content =>
    have hread : s.readFile path = (.ok content, (s.readFile path).2) := by
      rw [Store.readFile, hfile]
    refine ⟨hfresh, ((s.readFile path).2.openPort k content.toList).2, ?_, ?_⟩
    · rw [Run.Port.openFile]
      refine (Run.bind_apply_ok (a := path) rfl).trans ?_
      rw [Run.bind_apply, Run.update_apply, hread]
      rfl
    · have htable : (((s.readFile path).2.openPort k content.toList).2.portTable k) =
          ((s.portTable k).openOn content.toList).2 :=
        Store.portTable_modifyPorts_self (s := (s.readFile path).2) hk _
      rw [htable]
      exact ⟨rfl, PortTable.source?_openOn _ _⟩
  | error e =>
    have hread : s.readFile path = (.error e, (s.readFile path).2) := by
      rw [Store.readFile, hfile]
    refine ⟨(s.readFile path).2, ?_, rfl⟩
    rw [Run.Port.openFile]
    refine (Run.bind_apply_ok (a := path) rfl).trans ?_
    rw [Run.bind_apply, Run.update_apply, hread]
    rfl

theorem readsPort (h : (s.portTable k).Numbered) {marker : Symbol}
    (hn : n.Does (.readPort k marker)) {v : Value} (hv : v.index? = some port) :
    ReadsPort k marker port env rounds calls s
      (run rounds (calls + 1) (.apply (.native n) [v] env) s) := by
  rw [run_read hn.body hn.check, ReadsPort]
  -- a closed port is refused; an open one is at its end, or has a form read from it
  rcases hs : (s.portTable k).source? port with - | source
  · exact Run.bind_apply_error (Run.Port.take_of_closed _ hv hs)
  · have hsize := Store.inRange_holding hs
    refine ⟨Store.source?_holding hs, ?_⟩
    rw [Run.Port.next_of_open hv hs]
    split
    · next hempty =>
      rw [List.isEmpty_iff.mp hempty]
      refine ⟨rfl, fun other => ?_⟩
      rw [Store.source?_returning hsize, Store.source?_holding hs]
      split <;> rfl
    · obtain ⟨hsame, hread⟩ := form_held StopRule.idle_refusing hsize
        (Store.has_holding ⟨h.given hs, hs⟩) rounds calls (s.global env) source.skip
      rw [hsame]
      rcases hread with hunfinished | ⟨form, rest, t, hread, hrest, hk, ht⟩
      · rcases hform : (run rounds calls).form .code (s.global env) source.skip (s.holding k port)
          with ⟨e | p, t⟩ <;> rw [hform] at hunfinished <;> cases hunfinished
        exact ⟨rfl, rfl⟩
      · rw [hread]
        exact ⟨hrest, ht, rfl, Store.source?_returning hk port rest⟩

theorem closesPort (hn : n.Does (.closePort k)) {v : Value} (hv : v.index? = some port) :
    ClosesPort k port s (run rounds (calls + 1) (.apply (.native n) [v] env) s) := by
  rw [run_close hn.body hn.check, Run.Port.close, ClosesPort]
  rcases hs : (s.portTable k).source? port with - | source
  · exact Run.bind_apply_error (Run.Port.take_of_closed _ hv hs)
  · exact ⟨Run.bind_apply_ok (Run.Port.take_of_open _ hv hs), Store.source?_holding hs⟩

end Functions

/-! ### The main result -/

/-- The tables of ports that hosts and programs come to are numbered.  From there, whatever runs is
orderly, and the three functions of a table do what they are for; the number that opening a port
gives names it. -/
theorem ports_orderly :
    (∀ files s, Store.Reachable files s → ∀ k, (s.portTable k).Numbered) ∧
    (∀ port, 0 < port → port < 2 ^ 53 →
      Value.index? (.number (Float.ofNat port)) = some port) ∧
    ∀ (k : Nat) (s : Store), (s.portTable k).Numbered → ∀ rounds calls : Nat,
      (∀ {α : Type} (c : Call α), Orderly k (fun self => self c) rounds calls s) ∧
      (∀ p : HostProgram, Orderly k (fun self => Run.program self p) rounds calls s) ∧
      ∀ (n : Native) (env : FrameId),
        (n.Does (.openPort k) → k < s.portTables.size → ∀ id path,
          OpensPort k path s (run rounds (calls + 1) (.apply (.native n) [.text id path] env) s)) ∧
        (∀ marker, n.Does (.readPort k marker) → ∀ v port, v.index? = some port →
          ReadsPort k marker port env rounds calls s
            (run rounds (calls + 1) (.apply (.native n) [v] env) s)) ∧
        (n.Does (.closePort k) → ∀ v port, v.index? = some port →
          ClosesPort k port s (run rounds (calls + 1) (.apply (.native n) [v] env) s)) := by
  refine ⟨fun files s hs => hs.numbered, fun port => Number.index?_ofNat, ?_⟩
  intro k s hs rounds calls
  refine ⟨fun c => orderly_of_composed (.call c) hs rounds calls, fun p => ?_, ?_⟩
  · -- a host program reaches the ports through calls alone
    have hprogram := (ComposedOf.program p.readsIn_true).forget (O := _)
    exact orderly_of_composed (hprogram.mono fun hf => .on (.operates hf)) hs rounds calls
  · intro n env
    exact ⟨fun hn hk id path => opensPort rounds calls hs hk hn id path,
      fun _ hn v port hv => readsPort rounds calls hs hn hv,
      fun hn v port hv => closesPort rounds calls hn hv⟩

/-- A port on a text of one form, in a store with one frame: it is read, found to be at its end, and
closed; then it can no longer be read. -/
theorem ports_orderly_of_open :
    (Store.Reachable .empty (.empty .empty) ∧ ((Store.empty .empty).portTable 0).Numbered) ∧
    Value.index? (.number (Float.ofNat 1)) = some 1 ∧
    (let s : Store := { (Store.empty .empty).addRealm .preserve 4 |>.2 with
        portTables := #[⟨1, [(1, ['x'])]⟩] }
      let port : Value := .number (Float.ofNat 1)
      let apply (name : String) (p : Primitive) (v : Value) : Call Value :=
        .apply (.native ⟨0, name, .exactly 1, p⟩) [v] 0
      let marker := (s.intern 0 markerName).1
      let read := apply "sys:read" (.readPort 0 marker) port
      let close := apply "sys:close" (.closePort 0) port
      let t := (run 0 3 close s).2
      (s.portTable 0).Numbered ∧
        Orderly 0 (fun self => self read) 0 3 s ∧
        ReadsPort 0 marker 1 0 0 2 s (run 0 3 read s) ∧
        ClosesPort 0 1 s (run 0 3 close s) ∧
        OpensPort 0 "f" s
          (run 0 3 (apply "sys:open-file-for-input" (.openPort 0) (.text 0 "f")) s) ∧
        ReadsPort 0 marker 1 0 0 2 t (run 0 3 read t) ∧
        (run 0 3 read t).1 = .error (.fault (.notOpen "sys:read" 1))) := by
  obtain ⟨hreached, hindex, hruns⟩ := ports_orderly
  have hone : Value.index? (.number (Float.ofNat 1)) = some 1 := hindex 1 (by decide) (by decide)
  have hstart : Store.Reachable .empty (.empty .empty) := .start
  refine ⟨⟨hstart, hreached .empty _ hstart 0⟩, hone, ?_⟩
  intro s port apply marker read close t
  have hs : (s.portTable 0).Numbered :=
    ⟨List.nodup_singleton 1, fun port hport => Nat.le_of_eq (List.mem_singleton.mp hport)⟩
  have ht : (t.portTable 0).Numbered := ((hruns 0 s hs 0 3).1 close).numbered
  obtain ⟨-, -, hfunctions⟩ := hruns 0 s hs 0 2
  have hclosed := (hfunctions ⟨0, "sys:close", .exactly 1, .closePort 0⟩ 0).2.2
    ⟨rfl, rfl⟩ port 1 hone
  have hread := ((hruns 0 t ht 0 2).2.2 ⟨0, "sys:read", .exactly 1, .readPort 0 marker⟩ 0).2.1
    marker ⟨rfl, rfl⟩ port 1 hone
  refine ⟨hs, (hruns 0 s hs 0 3).1 read, ?_, hclosed, ?_, hread, ?_⟩
  · exact (hfunctions ⟨0, "sys:read", .exactly 1, .readPort 0 marker⟩ 0).2.1
      marker ⟨rfl, rfl⟩ port 1 hone
  · exact (hfunctions ⟨0, "sys:open-file-for-input", .exactly 1, .openPort 0⟩ 0).1 ⟨rfl, rfl⟩
      (by decide) 0 "f"
  · have hgone : (t.portTable 0).source? 1 = none := by
      have hstore : t = s.holding 0 1 := congrArg Prod.snd hclosed.1
      exact hstore ▸ hclosed.2 1
    rw [ReadsPort, hgone] at hread
    rw [hread]

end PocketLisp
