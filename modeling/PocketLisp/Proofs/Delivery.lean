/-
PocketLisp/Proofs/Delivery.lean

Delivery of texts to the subscribers of a channel.

A delivery asks at each subscriber's turn whether its program is running, and
the programs that run in between deliver texts and subscribe themselves.  Here
the interpreter is compared with one that keeps a list of what is going on in
place of the marks of the subscribers: when a delivery starts, it lists the
subscribers that are idle then, and runs their programs one after the other.

The two do the same (`run_agrees`), because a program that has ended leaves the
marks as they were: what is marked is always what is listed (`Tallies`).

Main result: `deliveries_listed`.
-/
import Mathlib.Data.List.Nodup
import Mathlib.Data.List.Perm.Subperm
import PocketLisp.Proofs.Composition

namespace PocketLisp

/-! ### Subscribers -/

namespace Store

/-- The subscriber at a place. -/
def subscriber? (s : Store) (channel i : Nat) : Option Subscriber :=
  s.channels[channel]?.bind fun subscribers => subscribers[i]?

/-- What the subscribers of a channel do, in the order of their subscription. -/
def reactions (s : Store) (channel : Nat) : List (String → HostProgram) :=
  match s.channels[channel]? with
  | some subscribers => subscribers.toList.map Subscriber.react
  | none => []

/-- No program of a subscriber is running. -/
def NobodyRuns (s : Store) : Prop :=
  ∀ channel i x, s.subscriber? channel i = some x → x.busy = false

/-- The subscribers of the first store are the first of the second: some may have been added. -/
def Subscribed (s t : Store) : Prop := ∀ channel, s.reactions channel <+: t.reactions channel

variable {s : Store}

theorem length_reactions (s : Store) (channel : Nat) :
    (s.reactions channel).length = s.subscriberCount channel := by
  rw [reactions, subscriberCount]
  rcases s.channels[channel]? with - | xs <;> simp

theorem Subscribed.count_le {t : Store} (h : s.Subscribed t) (channel : Nat) :
    s.subscriberCount channel ≤ t.subscriberCount channel := by
  rw [← length_reactions, ← length_reactions]
  exact (h channel).length_le

theorem subscribed_of_channels {t : Store} (h : t.channels = s.channels) : s.Subscribed t := by
  intro channel
  have hsame : t.reactions channel = s.reactions channel := by rw [reactions, reactions, h]
  exact hsame ▸ List.prefix_rfl

theorem idleSubscriber?_eq (s : Store) (channel i : Nat) :
    s.idleSubscriber? channel i = (s.subscriber? channel i).filter fun x => !x.busy := rfl

theorem subscriber?_isSome_iff {channel i : Nat} :
    (s.subscriber? channel i).isSome ↔ i < s.subscriberCount channel := by
  rw [subscriber?, subscriberCount]
  rcases s.channels[channel]? with - | xs <;> simp

theorem subscriber?_setBusy (s : Store) (channel i : Nat) (busy : Bool) (channel' j : Nat) :
    (s.setBusy channel i busy).subscriber? channel' j =
      if channel' = channel ∧ j = i then
        (s.subscriber? channel' j).map fun x => { x with busy := busy }
      else s.subscriber? channel' j := by
  simp only [subscriber?, setBusy, Array.getElem?_modify]
  by_cases hchannel : channel' = channel
  · subst hchannel
    rcases s.channels[channel']? with - | xs
    · simp
    · by_cases hi : j = i
      · simp [hi, Array.getElem?_modify]
      · simp [hi, Ne.symm hi, Array.getElem?_modify]
  · simp [hchannel, Ne.symm hchannel]

/-- A new subscriber comes behind the others, and its program is not running. -/
theorem subscriber?_subscribe {channel : Nat} {react : String → HostProgram} {channel' j : Nat}
    {x : Subscriber} (h : (s.subscribe channel react).subscriber? channel' j = some x) :
    s.subscriber? channel' j = some x ∨
      x.busy = false ∧ s.subscriberCount channel' ≤ j := by
  simp only [subscriber?, subscribe, Array.getElem?_modify] at h
  -- in the channel itself the new subscriber stands behind all others
  split at h
  · next hchannel =>
    subst hchannel
    rw [subscriber?, subscriberCount]
    rcases hxs : s.channels[channel]? with - | xs <;> rw [hxs] at h
    · cases h
    · simp only [Option.map_some, Option.bind_some, Array.getElem?_push] at h ⊢
      split at h
      · next hj =>
        cases h
        exact .inr ⟨rfl, Nat.le_of_eq hj.symm⟩
      · exact .inl h
  · exact .inl h

theorem subscribed_subscribe (s : Store) (channel : Nat) (react : String → HostProgram) :
    s.Subscribed (s.subscribe channel react) := by
  intro channel'
  simp only [reactions, subscribe, Array.getElem?_modify]
  by_cases hchannel : channel = channel'
  · rw [if_pos hchannel]
    rcases s.channels[channel']? with - | xs <;> simp
  · exact if_neg hchannel ▸ List.prefix_rfl

theorem reactions_setBusy (s : Store) (channel i : Nat) (busy : Bool) (channel' : Nat) :
    (s.setBusy channel i busy).reactions channel' = s.reactions channel' := by
  simp only [reactions, setBusy, Array.getElem?_modify]
  by_cases hchannel : channel = channel'
  · rw [if_pos hchannel]
    rcases s.channels[channel']? with - | xs
    · rfl
    · refine List.ext_getElem? fun j => ?_
      simp only [Option.map_some, List.getElem?_map, Array.getElem?_toList, Array.getElem?_modify]
      by_cases hj : i = j
      · subst hj
        rcases xs[i]? with - | x <;> simp
      · rw [if_neg hj]
  · rw [if_neg hchannel]

theorem subscriberCount_setBusy (s : Store) (channel i : Nat) (busy : Bool) (channel' : Nat) :
    (s.setBusy channel i busy).subscriberCount channel' = s.subscriberCount channel' := by
  rw [← length_reactions, reactions_setBusy, length_reactions]

/-- No operation removes a subscriber. -/
theorem leads_subscribed : Leads OperatesOrMarks Subscribed where
  refl s channel := List.prefix_rfl
  trans h h' channel := (h channel).trans (h' channel)
  operation hf s := by
    cases hf with
    | setBusy channel i busy =>
      intro channel'
      exact reactions_setBusy s channel i busy channel' ▸ List.prefix_rfl
    | operates hf =>
      cases hf with
      | subscribe channel react => exact subscribed_subscribe s channel react
      | countCall i =>
        refine subscribed_of_channels ?_
        simp only [countCall]
        split <;> rfl
      | _ => exact subscribed_of_channels rfl

end Store

/-! ### What is going on -/

/-- The deliveries that are active, by their channels, and the subscribers whose programs are
running, each from the latest. -/
structure Ongoing where
  deliveries : List Nat
  running : List (Nat × Nat)

namespace Ongoing

/-- How many programs of subscribers of a channel are running. -/
def runningOn (o : Ongoing) (channel : Nat) : Nat := o.running.countP fun p => p.1 = channel

/-- Those of the first subscribers of a channel whose programs are not running, in the order of
their subscription. -/
def idle (o : Ongoing) (channel count : Nat) : List Nat :=
  (List.range count).filter fun i => (channel, i) ∉ o.running

/-- A delivery has started. -/
def delivering (o : Ongoing) (channel : Nat) : Ongoing :=
  { o with deliveries := channel :: o.deliveries }

/-- A program of a subscriber has started. -/
def entering (o : Ongoing) (channel i : Nat) : Ongoing :=
  { o with running := (channel, i) :: o.running }

/-- Where no delivery is between two programs, each has started one of those that run, and no
program is running twice. -/
structure Balanced (o : Ongoing) : Prop where
  nodup : o.running.Nodup
  count : ∀ channel, o.deliveries.count channel = o.runningOn channel

end Ongoing

/-! ### Deliveries by lists -/

namespace Run

/-- Runs the program with which a subscriber reacts to a text, and marks it while it runs. -/
def enter (self : Recur) (channel i : Nat) (content : String) : Run Unit := do
  match ← read fun s => s.subscriber? channel i with
  | none => unfinished
  | some subscriber =>
    change fun s => s.setBusy channel i true
    let _ ← observe (program self (subscriber.react content))
    change fun s => s.setBusy channel i false

/-- Delivers a text to the subscribers that are listed when the delivery starts: those that the
channel has and whose programs are not running.  It ends unfinished if more deliveries are active on
the channel than one for each program that is running and one more, or than there are subscribers
and one more. -/
def emitListed (self : Ongoing → Recur) (o : Ongoing) (channel : Nat) (content : String) :
    Run Unit := do
  let count ← read fun s => s.subscriberCount channel
  let o := o.delivering channel
  if o.deliveries.count channel ≤ o.runningOn channel + 1 ∧
      o.deliveries.count channel ≤ count + 1 then
    (o.idle channel count).forM fun i => enter (self (o.entering channel i)) channel i content
  else unfinished

end Run

/-- What each activity does while these deliveries are going on. -/
def performListed (self : Ongoing → Recur) (o : Ongoing) (rounds : Nat) : Recur
  | _, .emit channel content => Run.emitListed self o channel content
  | _, c => perform (self o) rounds c

/-- Carries out a call as `run` does, but never asks whether a program of a subscriber is marked as
running. -/
def listedRun (rounds : Nat) : (calls : Nat) → Ongoing → Recur
  | 0, _, _, _ => Run.unfinished
  | calls + 1, o, _, c => c.nested (performListed (listedRun rounds calls) o rounds c)

/-! ### What is marked is what is listed -/

/-- The marks of a store tell the programs that are listed. -/
structure Tallies (o : Ongoing) (s : Store) : Prop where
  busy : ∀ {channel i x}, s.subscriber? channel i = some x →
    (x.busy = true ↔ (channel, i) ∈ o.running)
  there : ∀ {channel i}, (channel, i) ∈ o.running → i < s.subscriberCount channel

namespace Tallies

variable {o : Ongoing} {s t : Store} {channel i : Nat}

theorem of_channels (h : Tallies o s) (hst : t.channels = s.channels) : Tallies o t where
  busy hx := h.busy (by rwa [Store.subscriber?, hst] at hx)
  there hi := by
    rw [Store.subscriberCount, hst]
    exact h.there hi

theorem nobodyRuns_iff : Tallies ⟨[], []⟩ s ↔ s.NobodyRuns := by
  refine ⟨fun h channel i x hx => ?_, fun h => ⟨fun {channel i x} hx => ?_, nofun⟩⟩
  · simpa using h.busy hx
  · simpa using h channel i x hx

theorem subscribe (h : Tallies o s) (channel : Nat) (react : String → HostProgram) :
    Tallies o (s.subscribe channel react) where
  busy {channel' j x} hx := by
    rcases Store.subscriber?_subscribe hx with hold | ⟨hbusy, hbehind⟩
    · exact h.busy hold
    · -- whoever is listed had subscribed before
      have hidle : ¬ x.busy = true := by simp [hbusy]
      refine ⟨fun hx => absurd hx hidle, fun hrunning => ?_⟩
      exact absurd (h.there hrunning) (Nat.not_lt_of_le hbehind)
  there hi :=
    Nat.lt_of_lt_of_le (h.there hi) ((Store.subscribed_subscribe s channel react).count_le _)

/-- No operation but the marking of subscribers makes a difference. -/
theorem operates (h : Tallies o s) {α : Type} {f : Store → α × Store} (hf : Operates f) :
    Tallies o (f s).2 := by
  cases hf with
  | subscribe channel react => exact h.subscribe channel react
  | countCall i =>
    refine h.of_channels ?_
    simp only [Store.countCall]
    split <;> rfl
  | _ => exact h.of_channels rfl

theorem enter (h : Tallies o s) (hi : i < s.subscriberCount channel) :
    Tallies (o.entering channel i) (s.setBusy channel i true) where
  busy {channel' j x} hx := by
    rw [Store.subscriber?_setBusy] at hx
    split at hx
    · next heq =>
      obtain ⟨y, hy, rfl⟩ := Option.map_eq_some_iff.mp hx
      simp [Ongoing.entering, heq]
    · next hne =>
      rw [h.busy hx]
      simp [Ongoing.entering, hne]
  there {channel' j} hj := by
    rw [Store.subscriberCount_setBusy]
    rcases List.mem_cons.mp hj with heq | hj
    · cases heq
      exact hi
    · exact h.there hj

theorem leave (h : Tallies (o.entering channel i) s) (hi : (channel, i) ∉ o.running) :
    Tallies o (s.setBusy channel i false) where
  busy {channel' j x} hx := by
    rw [Store.subscriber?_setBusy] at hx
    split at hx
    · next heq =>
      obtain ⟨y, hy, rfl⟩ := Option.map_eq_some_iff.mp hx
      simp [heq, hi]
    · next hne =>
      rw [h.busy hx]
      simp [Ongoing.entering, hne]
  there {channel' j} hj := by
    rw [Store.subscriberCount_setBusy]
    exact h.there (List.mem_cons_of_mem _ hj)

end Tallies

/-! ### Deliveries agree -/

/-- Only what is unfinished is not observed. -/
theorem Run.observe_error {α : Type} {m : Run α} {s t : Store} {e : Stop}
    (h : Run.observe m s = (.error e, t)) : e = .unfinished := by
  rw [Run.observe_apply] at h
  rcases hm : m s with ⟨(f | _) | a, t⟩ <;> rw [hm] at h <;> cases h
  rfl

section Agreement

variable {o : Ongoing} {self : Recur} {self' : Ongoing → Recur}

/-- Programs that run on a channel run for different subscribers. -/
theorem Ongoing.runningOn_le (h : o.Balanced) {s : Store} (hs : Tallies o s) (channel : Nat) :
    o.runningOn channel ≤ s.subscriberCount channel := by
  -- their positions are different, and all are below the number of subscribers
  have hnodup : ((o.running.filter fun p => p.1 = channel).map Prod.snd).Nodup := by
    refine List.Nodup.map_on (fun p hp q hq hpq => Prod.ext ?_ hpq) (h.nodup.filter _)
    have hp' := (List.mem_filter.mp hp).2
    have hq' := (List.mem_filter.mp hq).2
    simp only [decide_eq_true_eq] at hp' hq'
    rw [hp', hq']
  have hsub : ((o.running.filter fun p => p.1 = channel).map Prod.snd) ⊆
      List.range (s.subscriberCount channel) := by
    intro i hi
    obtain ⟨⟨c, j⟩, hp, rfl⟩ := List.mem_map.mp hi
    obtain ⟨hmem, hc⟩ := List.mem_filter.mp hp
    simp only [decide_eq_true_eq] at hc
    subst hc
    exact List.mem_range.mpr (hs.there hmem)
  have hlength := (hnodup.subperm hsub).length_le
  rwa [List.length_map, ← List.countP_eq_length_filter, List.length_range] at hlength

/-- A program that starts belongs to the delivery that starts it. -/
theorem Ongoing.Balanced.entering (h : o.Balanced) {channel i : Nat}
    (hi : (channel, i) ∉ o.running) : ((o.delivering channel).entering channel i).Balanced where
  nodup := List.nodup_cons.mpr ⟨hi, h.nodup⟩
  count channel' := by
    have hcount := h.count channel'
    simp only [Ongoing.delivering, Ongoing.entering, Ongoing.runningOn] at hcount ⊢
    rw [List.count_cons, List.countP_cons, hcount]
    simp

/-- At the turn of an idle subscriber its program runs, at that of another nothing happens. -/
theorem deliver_agrees {channel i count : Nat} (content : String) (hi : i < count)
    (hgrows : ∀ {α : Type} (c : Call α) (s : Store), s.Subscribed (self c s).2)
    (hself : (channel, i) ∉ o.running → ∀ {α : Type} (c : Call α),
      Agrees (Tallies (o.entering channel i)) (self c) (self' (o.entering channel i) c)) :
    Agrees (fun s => Tallies o s ∧ count ≤ s.subscriberCount channel)
      (Run.deliver self channel i content)
      (if (channel, i) ∉ o.running then
        Run.enter (self' (o.entering channel i)) channel i content else pure ()) := by
  rintro s ⟨hs, hcount⟩
  have hlt : i < s.subscriberCount channel := Nat.lt_of_lt_of_le hi hcount
  obtain ⟨x, hx⟩ := Option.isSome_iff_exists.mp (Store.subscriber?_isSome_iff.mpr hlt)
  rw [Run.deliver, Run.bind_apply_ok (Run.read_apply _ s), Store.idleSubscriber?_eq, hx]
  -- a subscriber that runs is passed over by both
  by_cases hrunning : (channel, i) ∈ o.running
  · have hbusy : x.busy = true := (hs.busy hx).mpr hrunning
    rw [if_neg (not_not_intro hrunning)]
    simp only [Option.filter, hbusy]
    exact ⟨rfl, fun _ => ⟨hs, hcount⟩⟩
  · -- any other is entered, and left when its program has ended
    have hidle : x.busy = false := by
      simpa using mt (hs.busy hx).mp hrunning
    have hentered := hs.enter hlt
    have hprogram := Composed.program (x.react content)
    obtain ⟨heq, hkeeps⟩ := (hprogram.agrees (fun hf _ h => h.operates hf)
      (hself hrunning)).observe _ hentered
    -- the program may have added subscribers, so that those counted first are still there
    have hgrown := (hprogram.observe.mono .operates).leads Store.leads_subscribed hgrows
      (s.setBusy channel i true)
    rw [if_pos hrunning, Run.enter, Run.bind_apply_ok (Run.read_apply _ s), hx]
    simp only [Option.filter, hidle, Bool.not_false, if_true]
    rw [Run.bind_apply_ok (Run.change_apply _ s), Run.bind_apply_ok (Run.change_apply _ s),
      Run.bind_apply, Run.bind_apply, heq]
    rcases hr : (Run.program self (x.react content)).observe (s.setBusy channel i true) with
      ⟨e | r, t⟩ <;> rw [hr] at hkeeps hgrown
    · exact ⟨rfl, fun he => absurd (congrArg _ (Run.observe_error hr)) he⟩
    · refine ⟨rfl, fun _ => ⟨(hkeeps nofun).leave hrunning, ?_⟩⟩
      have hle := hgrown.count_le channel
      rw [Store.subscriberCount_setBusy] at hle
      show count ≤ (t.setBusy channel i false).subscriberCount channel
      rw [Store.subscriberCount_setBusy]
      exact Nat.le_trans hcount hle

/-- To ask at each turn comes to the same as to list the idle subscribers first. -/
theorem delivers_agree {channel count : Nat} (content : String) (is : List Nat)
    (his : ∀ i ∈ is, i < count)
    (hgrows : ∀ {α : Type} (c : Call α) (s : Store), s.Subscribed (self c s).2)
    (hself : ∀ i, (channel, i) ∉ o.running → ∀ {α : Type} (c : Call α),
      Agrees (Tallies (o.entering channel i)) (self c) (self' (o.entering channel i) c)) :
    Agrees (fun s => Tallies o s ∧ count ≤ s.subscriberCount channel)
      (is.forM fun i => Run.deliver self channel i content)
      ((is.filter fun i => (channel, i) ∉ o.running).forM fun i =>
        Run.enter (self' (o.entering channel i)) channel i content) := by
  induction is with
  | nil => exact fun s hs => ⟨rfl, fun _ => hs⟩
  | cons i is ih =>
    obtain ⟨hi, his⟩ := List.forall_mem_cons.mp his
    have hfirst : Agrees _ (Run.deliver self channel i content)
        (if (channel, i) ∉ o.running then
          Run.enter (self' (o.entering channel i)) channel i content else pure ()) :=
      deliver_agrees content hi hgrows (hself i)
    have hboth := hfirst.bind fun _ => ih his
    -- the list of those that do not run is that of those to whom something is delivered
    by_cases hrunning : (channel, i) ∈ o.running
    · rw [if_neg (not_not_intro hrunning)] at hboth
      rw [List.filter_cons_of_neg (by simpa using hrunning)]
      exact hboth
    · rw [if_pos hrunning] at hboth
      rw [List.filter_cons_of_pos (by simpa using hrunning)]
      exact hboth

theorem emit_agrees (h : o.Balanced) (channel : Nat) (content : String)
    (hgrows : ∀ {α : Type} (c : Call α) (s : Store), s.Subscribed (self c s).2)
    (hself : ∀ o' : Ongoing, o'.Balanced → ∀ {α : Type} (c : Call α),
      Agrees (Tallies o') (self c) (self' o' c)) :
    Agrees (Tallies o) (Run.emit self channel content)
      (Run.emitListed self' o channel content) := by
  intro s hs
  have hcount : (o.delivering channel).deliveries.count channel = o.runningOn channel + 1 := by
    rw [Ongoing.delivering, List.count_cons_self, h.count]
  have hle := Ongoing.runningOn_le h hs channel
  -- the deliveries that are active are those whose programs run, and this one
  have hbounds : (o.delivering channel).deliveries.count channel ≤
      (o.delivering channel).runningOn channel + 1 ∧
      (o.delivering channel).deliveries.count channel ≤ s.subscriberCount channel + 1 :=
    ⟨Nat.le_of_eq hcount, hcount ▸ Nat.succ_le_succ hle⟩
  rw [Run.emit, Run.emitListed, Run.bind_apply_ok (Run.read_apply _ s),
    Run.bind_apply_ok (Run.read_apply _ s), if_pos hbounds]
  have hturns : Agrees _
      ((List.range (s.subscriberCount channel)).forM fun i => Run.deliver self channel i content)
      (((List.range (s.subscriberCount channel)).filter fun i =>
        (channel, i) ∉ (o.delivering channel).running).forM fun i =>
          Run.enter (self' ((o.delivering channel).entering channel i)) channel i content) :=
    delivers_agree content _ (fun i hi => List.mem_range.mp hi) hgrows
      (fun i hi => hself _ (h.entering hi))
  obtain ⟨heq, hkeeps⟩ := hturns s ⟨⟨hs.busy, hs.there⟩, Nat.le_refl _⟩
  exact ⟨heq, fun hr => ⟨(hkeeps hr).1.busy, (hkeeps hr).1.there⟩⟩

end Agreement

/-- No call of the interpreter removes a subscriber. -/
theorem run_subscribed {α : Type} (rounds calls : Nat) (c : Call α) (s : Store) :
    s.Subscribed (run rounds calls c s).2 :=
  run_leads Store.leads_subscribed (fun _ _ => Store.subscribed_of_channels rfl)
    (fun _ _ => Store.subscribed_of_channels rfl) rounds calls c s

/-- The interpreter that lists what is going on does what the interpreter does. -/
theorem run_agrees {α : Type} (rounds calls : Nat) {o : Ongoing} (h : o.Balanced) (c : Call α) :
    Agrees (Tallies o) (run rounds calls c) (listedRun rounds calls o c) := by
  -- a program that is started one call deeper has one more delivery and one more program going on
  induction calls generalizing α o with
  | zero => exact fun s hs => ⟨rfl, fun _ => hs⟩
  | succ calls ih =>
    refine Agrees.nested c ?_ (fun s env hs => hs.of_channels rfl)
      fun s realm hs => hs.of_channels rfl
    cases hc : c.isEmit with
    | true =>
      cases c with
      | emit channel content =>
        exact emit_agrees h channel content (run_subscribed rounds calls)
          fun o' ho' {α} c => ih ho' c
      | _ => cases hc
    | false =>
      have hperform := (perform_composed rounds c hc).agrees (fun hf _ hs => hs.operates hf)
        (fun c => ih h c)
      cases c with
      | emit channel content => cases hc
      | _ => exact hperform

/-- Whatever a program of the host does while no program of a subscriber is running: every text is
delivered, in the order of subscription and once to each, to the subscribers that the channel has
when the delivery starts and whose programs are not running then, and to no others; no program is
started while it is running; at most as many deliveries are active on a channel as programs of its
subscribers are running, and one more, and so at most as many as it has subscribers, and one more.
Subscribers are only added, and where the program ends, no program of a subscriber is running. -/
theorem deliveries_listed (rounds calls : Nat) (p : HostProgram) {s : Store} (h : s.NobodyRuns) :
    let outcome := Run.program (run rounds calls) p s
    Run.program (listedRun rounds calls ⟨[], []⟩) p s = outcome ∧
      (outcome.1 ≠ .error .unfinished → outcome.2.NobodyRuns) ∧ s.Subscribed outcome.2 := by
  intro outcome
  have hnone : (⟨[], []⟩ : Ongoing).Balanced := ⟨List.nodup_nil, fun _ => rfl⟩
  have hprogram := Composed.program p
  obtain ⟨heq, hkeeps⟩ := hprogram.agrees (fun hf _ hs => hs.operates hf)
    (fun c => run_agrees rounds calls hnone c) s (Tallies.nobodyRuns_iff.mpr h)
  refine ⟨heq, fun hr => Tallies.nobodyRuns_iff.mp (hkeeps hr), ?_⟩
  exact (hprogram.mono .operates).leads Store.leads_subscribed (run_subscribed rounds calls) s

/-- The first of two subscribers adds a third and prints a text itself: this text goes to the second
and to the third, and then the first text goes to the second. -/
theorem deliveries_listed_of_three :
    let echo (name : String) (next : HostProgram) (content : String) : HostProgram :=
      .note (name ++ content) (if content = "1" then next else .done .nil)
    let third := echo "third " (.done .nil)
    let first := echo "first " (.subscribe 0 third (.emit 0 "2" (.done .nil)))
    let second := echo "second " (.done .nil)
    let s := ((Store.empty .empty).addChannel.2.subscribe 0 first).subscribe 0 second
    let p := HostProgram.emit 0 "1" (.done .nil)
    s.NobodyRuns ∧
      (Run.program (listedRun 0 9 ⟨[], []⟩) p s).2.transcript =
        #["first 1", "second 2", "third 2", "second 1"] ∧
      (Run.program (run 0 9) p s).2.transcript =
        #["first 1", "second 2", "third 2", "second 1"] := by
  intro echo third first second s p
  -- nobody runs in the beginning, and whoever is added does not run
  have hempty : (Store.empty .empty).addChannel.2.NobodyRuns := by
    intro channel i x hx
    rcases channel with - | channel <;> cases hx
  have hidle : s.NobodyRuns := Tallies.nobodyRuns_iff.mp
    (((Tallies.nobodyRuns_iff.mpr hempty).subscribe 0 first).subscribe 0 second)
  have htranscript : (Run.program (run 0 9) p s).2.transcript =
      #["first 1", "second 2", "third 2", "second 1"] := by decide +kernel
  refine ⟨hidle, ?_, htranscript⟩
  rw [(deliveries_listed 0 9 p hidle).1]
  exact htranscript

end PocketLisp
