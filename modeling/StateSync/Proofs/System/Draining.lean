import Mathlib.Algebra.GroupWithZero.Nat
import StateSync.Proofs.System.Events
import StateSync.Proofs.Transport.Backlog
import StateSync.Proofs.Transport.Lateness

/-! The loop that handles events until none is due. Handling an event can bring others to the very inbox that it was
    taken from, but only by a link that was there, and so what can still come becomes less with each event
    (`Apart.event`). The loop therefore ends, also if time passes while it runs (`Apart.exists_emptiesAll`), and as many
    events as could come at first are enough to see it through (`EmptiesAll.drainFrom_eq`). Nothing stops it on the way
    where every delay of what is sent fits into its 32 bits (`EmptiedAll.smooth`). -/

namespace StateSync.Manager
open Network (AtLink Deals Drained Smooth Spends)

variable {δ : Type} {m m' : Manager Address δ} {n n' n₁ : Network} {a b : Address} {p q : Peer} {i k : Nat}
  {e : TransportEvent} {es : List TransportEvent} {hs : List Address} {pass : Nat → Nat}
  {s r : Manager Address δ × Network}

/-! ### One event -/

/-- Whatever a manager makes of an event, it spends what can still come to the transport. -/
theorem handleEvent_spends (hm : m.Sound) (hi : m.transports[i]? = some a) (hn : n.Sound) :
    Spends n (m.handleEvent n i a e).2 a e.peer := by
  have hr := handleEvent_responds hm hi n e
  generalize (m.handleEvent n i a e).2 = n' at hr ⊢
  have hsever : ∀ {n₁ : Network} {reason : String}, n₁.Sound → Spends n n₁ a e.peer →
      (∀ b q, n₁.wire? b q = n.wire? b q) → Spends n (n₁.sever a e.peer reason) a e.peer := fun hn₁ hs hw =>
    hs.trans (hn₁.spends_sever a e.peer _) fun hw' => ⟨_, (hw _ _).symm.trans hw'⟩
  cases hr with
  | silent kept => exact .refl n a e.peer
  | declined server new => exact .refl n a e.peer
  | granted server new => exact hn.spends_approve a e.peer
  | said words kept => exact hn.spends_send a e.peer _ _
  | hungUp ended => exact hn.spends_sever a e.peer _
  | @broke bytes reason words ended =>
    have hsent := (hn.deals_send a e.peer bytes .ordered).sound
    exact hsever hsent (hn.spends_send a e.peer bytes _) (hn.send_reaches a e.peer bytes _).1

theorem handleEvent_smooth (hm : m.Sound) (hi : m.transports[i]? = some a) (hf : n.Fits a) (e : TransportEvent) :
    Smooth n (m.handleEvent n i a e).2 :=
  handleEvent_stable (P := Smooth n) hm hi
    { approve := fun h => h.trans (.approve ..)
      disconnect := fun _ h => h.trans (.sever ..)
      send := fun bytes d h => h.trans (.send (h.fits hf) _ bytes d)
      remoteAddress := id } (.refl n)

/-- No link joins two transports of the manager. -/
structure Apart (m : Manager Address δ) (n : Network) : Prop where
  sound : m.Sound
  net : n.Sound
  nodup : m.transports.Nodup
  foreign : ∀ {a p b q st}, a ∈ m.transports → n.wire? a p = some ⟨b, q, st⟩ → b ∉ m.transports

namespace Apart

theorem not_atLink (h : m.Apart n) (ha : a ∈ m.transports) (hb : b ∈ m.transports) (hne : ¬ (b = a ∧ q = p)) :
    ¬ AtLink n a p b q := by
  rintro (heq | ⟨st, hw⟩)
  · exact hne heq
  · exact h.foreign ha hw hb

theorem elapse (h : m.Apart n) (time : Nat) : m.Apart (n.elapse time) :=
  ⟨h.sound, h.net.elapse time, h.nodup, fun ha hw => h.foreign ha hw⟩

/-- Handling an event of one transport leaves the other transports of the manager as they are, and one event less to
    come. -/
theorem event (h : m.Apart n) (hi : m.transports[i]? = some a) (hpoll : n.poll a = (some e, n₁)) :
    let r := m.handleEvent n₁ i a e
    r.1.Apart r.2 ∧ r.1.transports = m.transports ∧ r.2.clock = n.clock ∧ r.2.backlog a < n.backlog a ∧
      (n.Fits a → Smooth n r.2) ∧ ∀ {b}, b ∈ m.transports → b ≠ a → r.2.endpoint? b = n.endpoint? b := by
  intro r
  have ha := List.mem_of_getElem? hi
  obtain ⟨hn₁, -, hwire, -⟩ := h.net.poll hpoll
  obtain ⟨hclock, hbacklog, hsame⟩ := Network.backlog_poll hpoll
  have hspends : Spends n₁ r.2 a e.peer := handleEvent_spends h.sound hi hn₁
  obtain ⟨id, hh⟩ := handleEvent_handles h.sound (List.getElem?_eq_some_iff.mp hi).1 n₁ a e
  have hdeals : Deals n r.2 a e.peer := (Deals.of_poll h.net hpoll).trans h.net (handleEvent_deals h.sound hi hn₁)
  have htransports : r.1.transports = m.transports := hh.transports
  refine ⟨⟨h.sound.of_settles hh.toSettles, hdeals.sound, htransports ▸ h.nodup, fun {b q d s st} hb hw => ?_⟩,
    htransports, hspends.clock.trans hclock, ?_, fun hf => ?_, fun {b} hb hne => ?_⟩
  · rw [htransports] at hb ⊢
    by_cases hend : b = a ∧ q = e.peer
    · obtain ⟨rfl, rfl⟩ := hend
      obtain ⟨st₀, hw₀⟩ := hdeals.leads hw
      exact h.foreign hb hw₀
    · exact h.foreign hb (hdeals.alike.wire? (h.not_atLink ha hb hend) ▸ hw)
  · have hle := hspends.backlog
    omega
  · have hpolled : Smooth n n₁ := by
      have hsmooth := Smooth.poll n a
      rwa [hpoll] at hsmooth
    exact hpolled.trans (handleEvent_smooth h.sound hi (hpolled.fits hf) e)
  · refine (hspends.endpoint? hne fun q st hw => ?_).trans (hsame hne)
    exact h.foreign ha (hwire _ _ ▸ hw) hb

end Apart

/-! ### The loop -/

/-- The events of one transport are handled until none is due. Before the `k`-th look at the inbox `pass k` time
    passes. -/
inductive Empties (pass : Nat → Nat) (i : Nat) (a : Address) :
    Nat → Manager Address δ × Network → List TransportEvent → Manager Address δ × Network → Prop
  | done {k : Nat} {m : Manager Address δ} {n n' : Network} (none : (n.elapse (pass k)).poll a = (none, n')) :
      Empties pass i a k (m, n) [] (m, n')
  | next {k : Nat} {m : Manager Address δ} {n n₁ : Network} {e : TransportEvent} {es : List TransportEvent}
      {r : Manager Address δ × Network} (due : (n.elapse (pass k)).poll a = (some e, n₁))
      (rest : Empties pass i a (k + 1) (m.handleEvent n₁ i a e) es r) : Empties pass i a k (m, n) (e :: es) r

/-- The events of some transports are handled in this way, one transport after the other; the first is in place `i`. -/
inductive EmptiesAll (pass : Nat → Nat) :
    Nat → Nat → List Address → Manager Address δ × Network → List TransportEvent → Manager Address δ × Network → Prop
  | done {i k : Nat} {s : Manager Address δ × Network} : EmptiesAll pass i k [] s [] s
  | next {i k : Nat} {a : Address} {hs : List Address} {s s' r : Manager Address δ × Network}
      {es es' : List TransportEvent} (first : Empties pass i a k s es s')
      (rest : EmptiesAll pass (i + 1) (k + es.length + 1) hs s' es' r) :
      EmptiesAll pass i k (a :: hs) s (es ++ es') r

namespace Apart

/-- The loop ends, for each event makes less of what can still come. -/
theorem exists_empties (h : m.Apart n) (hi : m.transports[i]? = some a) (pass : Nat → Nat) (k : Nat) :
    ∃ es r, Empties pass i a k (m, n) es r := by
  induction hb : n.backlog a using Nat.strongRecOn generalizing m n k with
  | ind backlog ih =>
    rcases hpoll : (n.elapse (pass k)).poll a with ⟨_ | e, n₁⟩
    · exact ⟨[], _, .done hpoll⟩
    · obtain ⟨hapart, htransports, -, hless, -⟩ := (h.elapse (pass k)).event hi hpoll
      have hsame : (n.elapse (pass k)).backlog a = n.backlog a := Network.backlog_congr rfl
      obtain ⟨es, r, hrest⟩ := ih _ (by omega) hapart (htransports ▸ hi) (k + 1) rfl
      exact ⟨e :: es, r, .next hpoll hrest⟩

end Apart

/-- What the loop comes to for a manager and its network, of which `es` were handled. -/
structure Emptied (m : Manager Address δ) (n : Network) (a : Address) (es : List TransportEvent)
    (r : Manager Address δ × Network) : Prop where
  apart : r.1.Apart r.2
  transports : r.1.transports = m.transports
  clock : n.clock ≤ r.2.clock
  count : es.length ≤ n.backlog a
  drained : r.2.Drained a
  smooth : n.Fits a → Smooth n r.2
  others : ∀ {b}, b ∈ m.transports → b ≠ a → r.2.endpoint? b = n.endpoint? b

theorem Empties.emptied (hr : Empties pass i a k s es r) (h : s.1.Apart s.2) (hi : s.1.transports[i]? = some a) :
    Emptied s.1 s.2 a es r := by
  induction hr with
  | done none =>
    obtain rfl := Network.poll_none none
    exact ⟨h.elapse _, rfl, Nat.le_add_right _ _, Nat.zero_le _, (h.net.elapse _).drained_of_poll none,
      fun _ => .elapse .., fun _ _ => rfl⟩
  | @next k m n n₁ e es r due rest ih =>
    have hlapsed : m.Apart (n.elapse (pass k)) := h.elapse (pass k)
    obtain ⟨hapart, htransports, hclock, hless, hsmooth, hothers⟩ := hlapsed.event hi due
    have hrest := ih hapart (htransports ▸ hi)
    have hsame : (n.elapse (pass k)).backlog a = n.backlog a := Network.backlog_congr rfl
    have hlater : n.clock ≤ (n.elapse (pass k)).clock := Nat.le_add_right _ _
    refine ⟨hrest.apart, hrest.transports.trans htransports, ?_, ?_, hrest.drained, fun hf => ?_, fun hb hne => ?_⟩
    · exact Nat.le_trans (hclock ▸ hlater) hrest.clock
    · calc (e :: es).length
        _ = es.length + 1 := List.length_cons
        _ ≤ (m.handleEvent n₁ i a e).2.backlog a + 1 := Nat.succ_le_succ hrest.count
        _ ≤ (n.elapse (pass k)).backlog a := hless
        _ = n.backlog a := hsame
    · have hfirst : Smooth n (m.handleEvent n₁ i a e).2 := (Smooth.elapse ..).trans (hsmooth ((Smooth.elapse ..).fits hf))
      exact hfirst.trans (hrest.smooth (hfirst.fits hf))
    · exact (hrest.others (htransports ▸ hb) hne).trans (hothers hb hne)

/-- If no time passes, as many events as could come at first are enough to see the loop through. -/
theorem Empties.drain_eq {most : Nat} (hr : Empties (fun _ => 0) i a k s es r) (h : s.1.Apart s.2)
    (hi : s.1.transports[i]? = some a) (hmost : s.2.backlog a ≤ most) :
    s.1.drain s.2 i a most = r ∧ r.2.clock = s.2.clock := by
  induction hr generalizing most with
  | @done k m n n' none =>
    have hpoll : n.poll a = (Option.none, n') := none
    obtain rfl := Network.poll_none hpoll
    cases most with
    | zero => exact ⟨rfl, rfl⟩
    | succ most =>
      rw [drain, show Medium.poll n' a = _ from hpoll]
      exact ⟨rfl, rfl⟩
  | @next k m n n₁ e es r due rest ih =>
    have hpoll : n.poll a = (some e, n₁) := due
    have hapart₀ : m.Apart n := h
    have hmost : n.backlog a ≤ most := hmost
    obtain ⟨hapart, htransports, hclock, hless, -⟩ := hapart₀.event hi hpoll
    obtain ⟨most, rfl⟩ : ∃ k, most = k + 1 := Nat.exists_eq_succ_of_ne_zero (by omega)
    rw [drain, show Medium.poll n a = _ from hpoll]
    obtain ⟨hdrain, hclock'⟩ := ih hapart (htransports ▸ hi) (Nat.le_of_lt_succ (Nat.lt_of_lt_of_le hless hmost))
    exact ⟨hdrain, hclock'.trans hclock⟩

/-! ### All transports -/

theorem Apart.exists_emptiesAll (h : m.Apart n) (hdrop : m.transports.drop i = hs) (pass : Nat → Nat) (k : Nat) :
    ∃ es r, EmptiesAll pass i k hs (m, n) es r := by
  induction hs generalizing m n i k with
  | nil => exact ⟨[], _, .done⟩
  | cons a hs ih =>
    obtain ⟨hi, hrest⟩ := place_of_drop hdrop
    obtain ⟨es, s', hfirst⟩ := h.exists_empties hi pass k
    have hemptied := hfirst.emptied h hi
    obtain ⟨es', r, hrest⟩ := ih hemptied.apart (hemptied.transports ▸ hrest) (k + es.length + 1)
    exact ⟨es ++ es', r, .next hfirst hrest⟩

/-- What all the loops come to, of those of the manager's transports that are in `hs`. -/
structure EmptiedAll (m : Manager Address δ) (n : Network) (hs : List Address) (es : List TransportEvent)
    (r : Manager Address δ × Network) : Prop where
  apart : r.1.Apart r.2
  transports : r.1.transports = m.transports
  clock : n.clock ≤ r.2.clock
  count : es.length ≤ (hs.map n.backlog).sum
  /-- Nothing is left that was due at first. -/
  past : ∀ b ∈ hs, ∀ x ∈ r.2.inbox b, n.clock < x.release
  smooth : (∀ b ∈ hs, n.Fits b) → Smooth n r.2
  others : ∀ {b}, b ∈ m.transports → b ∉ hs → r.2.endpoint? b = n.endpoint? b

theorem EmptiesAll.emptied (hr : EmptiesAll pass i k hs s es r) (h : s.1.Apart s.2)
    (hdrop : s.1.transports.drop i = hs) : EmptiedAll s.1 s.2 hs es r := by
  induction hr with
  | done => exact ⟨h, rfl, Nat.le_refl _, Nat.zero_le _, nofun, fun _ => .refl _, fun _ _ => rfl⟩
  | @next i k a hs s s' r es es' first rest ih =>
    obtain ⟨hi, htail⟩ := place_of_drop hdrop
    have hfirst := first.emptied h hi
    have hrest := ih hfirst.apart (hfirst.transports ▸ htail)
    -- No transport comes twice, so what one loop leaves the later ones leave as it is.
    have hnew : a ∉ hs := by
      have hnodup := h.nodup.sublist (List.drop_sublist i _)
      rw [hdrop] at hnodup
      exact (List.nodup_cons.mp hnodup).1
    have hmem : ∀ {b}, b ∈ hs → b ∈ s.1.transports := fun hb => List.mem_of_mem_drop (htail ▸ hb)
    have hsame : ∀ {b}, b ∈ hs → s'.2.endpoint? b = s.2.endpoint? b := fun hb =>
      hfirst.others (hmem hb) fun heq => hnew (heq ▸ hb)
    refine ⟨hrest.apart, hrest.transports.trans hfirst.transports, Nat.le_trans hfirst.clock hrest.clock, ?_,
      fun b hb x hx => ?_, fun hf => ?_, fun {b} hb hne => ?_⟩
    · have hbacklogs : hs.map s'.2.backlog = hs.map s.2.backlog :=
        List.map_congr_left fun b hb => Network.backlog_congr (hsame hb)
      rw [List.length_append, List.map_cons, List.sum_cons, ← hbacklogs]
      exact Nat.add_le_add hfirst.count hrest.count
    · rcases List.mem_cons.mp hb with rfl | hb
      · have hkept : r.2.inbox b = s'.2.inbox b := by
          rw [Network.inbox, hrest.others (hfirst.transports ▸ List.mem_of_getElem? hi) hnew, Network.inbox]
        exact Nat.lt_of_le_of_lt hfirst.clock (hfirst.drained x (hkept ▸ hx))
      · exact Nat.lt_of_le_of_lt hfirst.clock (hrest.past b hb x hx)
    · have hone := hfirst.smooth (hf a List.mem_cons_self)
      exact hone.trans (hrest.smooth fun b hb => hone.fits (hf b (List.mem_cons_of_mem _ hb)))
    · obtain ⟨hba, hb'⟩ := not_or.mp (mt List.mem_cons.mpr hne)
      exact (hrest.others (hfirst.transports ▸ hb) hb').trans (hfirst.others hb hba)

theorem EmptiesAll.drainFrom_eq (hr : EmptiesAll (fun _ => 0) i k hs s es r) (h : s.1.Apart s.2)
    (hdrop : s.1.transports.drop i = hs) : s.1.drainFrom s.2 i hs = r ∧ r.2.clock = s.2.clock := by
  induction hr with
  | done => exact ⟨rfl, rfl⟩
  | @next i k a hs s s' r es es' first rest ih =>
    obtain ⟨hi, htail⟩ := place_of_drop hdrop
    have hfirst := first.emptied h hi
    obtain ⟨hdrain, hclock⟩ := first.drain_eq h hi (Nat.le_refl _)
    obtain ⟨hrest, hclock'⟩ := ih hfirst.apart (hfirst.transports ▸ htail)
    rw [drainFrom, show Medium.backlog s.2 a = s.2.backlog a from rfl, hdrain]
    exact ⟨hrest, hclock'.trans hclock⟩

/-- When a manager has handled its events, none is due at any of its transports. -/
theorem Apart.process (h : m.Apart n) :
    let r := m.process n
    (∃ es, EmptiesAll (fun _ => 0) 0 0 m.transports (m, n) es r) ∧ r.1.transports = m.transports ∧
      r.2.clock = n.clock ∧ (∀ {b}, b ∈ m.transports → r.2.Drained b) ∧
        ((∀ b ∈ m.transports, n.Fits b) → Smooth n r.2) := by
  obtain ⟨es, r, hr⟩ := h.exists_emptiesAll (i := 0) rfl (fun _ => 0) 0
  have hemptied := hr.emptied h rfl
  obtain ⟨heq, hclock⟩ := hr.drainFrom_eq h rfl
  rw [show m.process n = r from heq]
  refine ⟨⟨es, hr⟩, hemptied.transports, hclock, fun hb x hx => ?_, hemptied.smooth⟩
  rw [hclock]
  exact hemptied.past _ hb x hx

end StateSync.Manager
