import Mathlib.Data.List.Nodup
import StateSync.Proofs.Transport.Ledger

/-! The packets on one link, in a ledger of its network. Every reliable packet that the transport takes is polled or
    waits, once, and the ordered ones stand in the order of their sends, whatever delays there are and whatever else is
    on its way (`run_delivers`). -/

namespace StateSync
open Network (Act)

theorem Delivery.isReliable_of_isOrdered {d : Delivery} (h : d.isOrdered = true) : d.isReliable = true := by
  cases d with
  | ordered => rfl
  | _ => cases h

namespace Ledger
variable {s s' : Ledger} {a b c : Address} {p q r : Peer} {x : Act} {y z : Letter} {ys zs : List Letter} {t : Ticket}
  {k : Delivery → Bool}

/-- The sends from an end that were granted, of some kinds of delivery. -/
def granted (s : Ledger) (a : Address) (p : Peer) (k : Delivery → Bool) : List Ticket :=
  s.log.filter fun t => t.addr = a && t.peer = p && k t.delivery && t.answer.isOk

/-- The sends whose packets are letters for a peer, of some kinds of delivery. -/
def tickets (q : Peer) (k : Delivery → Bool) (ys : List Letter) : List Ticket :=
  (ys.filter fun y => y.parcel.event.peer = q && k y.ticket.delivery).map (·.ticket)

/-! ### Tickets -/

theorem tickets_append : tickets q k (ys ++ zs) = tickets q k ys ++ tickets q k zs := by
  rw [tickets, List.filter_append, List.map_append, tickets, tickets]

theorem tickets_eq_nil (h : ∀ y ∈ ys, y.parcel.event.peer ≠ q) : tickets q k ys = [] := by
  rw [tickets, List.map_eq_nil_iff, List.filter_eq_nil_iff]
  intro y hy hk
  simp only [Bool.and_eq_true, decide_eq_true_eq] at hk
  exact h y hy hk.1

theorem tickets_enqueue_of_not (h : ¬ (y.parcel.event.peer = q ∧ k y.ticket.delivery = true)) (ys : List Letter) :
    tickets q k (y.enqueue ys) = tickets q k ys := by
  rw [tickets, Letter.filter_enqueue_of_false, tickets]
  simpa using h

theorem tickets_enqueue_perm (hpeer : y.parcel.event.peer = q) (hk : k y.ticket.delivery = true) (ys : List Letter) :
    (tickets q k (y.enqueue ys)).Perm (y.ticket :: tickets q k ys) := by
  have hperm := ((Letter.enqueue_perm y ys).filter fun y => y.parcel.event.peer = q && k y.ticket.delivery).map (·.ticket)
  rw [List.filter_cons, if_pos (by simp [hpeer, hk])] at hperm
  exact hperm

theorem tickets_enqueue_last (hpeer : y.parcel.event.peer = q) (hk : k y.ticket.delivery = true)
    (hs : ys.Pairwise fun y z => y.parcel.release ≤ z.parcel.release)
    (hle : ∀ z ∈ ys, z.parcel.event.peer = q → k z.ticket.delivery = true → z.parcel.release ≤ y.parcel.release) :
    tickets q k (y.enqueue ys) = tickets q k ys ++ [y.ticket] := by
  rw [tickets, Letter.filter_enqueue_last (by simp [hpeer, hk]) hs, List.map_append, tickets]
  · rfl
  · intro z hz hzk
    simp only [Bool.and_eq_true, decide_eq_true_eq] at hzk
    exact hle z hz hzk.1 hzk.2

theorem granted_of_log (hlog : s'.log = s.log) : s'.granted a p k = s.granted a p k := by
  rw [granted, hlog, granted]

theorem granted_snoc (hlog : s'.log = s.log ++ [t]) : s'.granted a p k = s.granted a p k ++
    if t.addr = a ∧ t.peer = p ∧ k t.delivery = true ∧ t.answer.isOk = true then [t] else [] := by
  rw [granted, hlog, List.filter_append, granted, List.filter_cons, List.filter_nil]
  simp only [Bool.and_eq_true, decide_eq_true_eq, and_assoc]

theorem Kept.sorted (h : s.Kept) (a : Address) :
    (s.waiting a).Pairwise fun y z => y.parcel.release ≤ z.parcel.release := by
  have hsorted : Parcel.Sorted ((s.waiting a).map (·.parcel)) := h.packets a ▸ (h.net.sorted a).filter _
  rw [Parcel.Sorted, List.pairwise_map] at hsorted
  exact hsorted

/-! ### Roads -/

/-- Two ends that are each other's, if they have a link at all. What goes from one to the other is known by either. -/
structure Road (s : Ledger) (a : Address) (p : Peer) (b : Address) (q : Peer) : Prop where
  known : p.val < s.net.nextPeer ∧ q.val < s.net.nextPeer
  near : ∀ {c r st}, s.net.wire? a p = some ⟨c, r, st⟩ → c = b ∧ r = q
  far : ∀ {c r st}, s.net.wire? b q = some ⟨c, r, st⟩ → c = a ∧ r = p
  source : ∀ {y}, y ∈ s.posted b → y.parcel.event.peer = q → y.ticket.addr = a ∧ y.ticket.peer = p
  target : ∀ {c y}, y ∈ s.posted c → y.ticket.addr = a → y.ticket.peer = p → c = b ∧ y.parcel.event.peer = q

/-- What an act comes to on a road: nothing, the loss of its receiving endpoint, or one more packet. -/
inductive Use (s : Ledger) (x : Act) (s' : Ledger) (a : Address) (p : Peer) (b : Address) (q : Peer) : Prop
  | idle (tickets : ∀ {k}, tickets q k (s'.posted b) = tickets q k (s.posted b))
      (granted : ∀ {k}, (∀ d, k d = true → d.isReliable = true) → s'.granted a p k = s.granted a p k)
      (link? : ∀ {l'}, s'.net.link? a p = some l' → ∃ l, s.net.link? a p = some l ∧ l'.orderedRelease = l.orderedRelease)
      (waiting : ∀ {y}, y ∈ s'.waiting b → y.parcel.event.peer = q → y ∈ s.waiting b)
  | lost (act : x = .close b) (posted : s'.posted b = s.taken b) (log : s'.log = s.log)
  | grown {l : Link} {y : Letter} (link : s.net.link? a p = some l)
      (later : s'.net.link? a p = some (l.heldTo y.ticket.delivery y.parcel.release))
      (held : y.ticket.delivery.isOrdered = true → l.orderedRelease ≤ y.parcel.release)
      (peer : y.parcel.event.peer = q) (taken : s'.taken b = s.taken b)
      (waiting : s'.waiting b = y.enqueue (s.waiting b))
      (granted : ∀ {k}, s'.granted a p k = s.granted a p k ++ if k y.ticket.delivery = true then [y.ticket] else [])

theorem Step.wire? (hstep : Step s x s') {d : Address} {t : Peer} {st : LinkState}
    (hw : s'.net.wire? c r = some ⟨d, t, st⟩) (hr : r.val < s.net.nextPeer) :
    ∃ st, s.net.wire? c r = some ⟨d, t, st⟩ := by
  cases hstep with
  | sent hl event held dispatches => exact ⟨st, (dispatches.wire? hl c r).symm.trans hw⟩
  | refused still lost => exact still.wire? hw hr
  | passed passes kept closed => exact passes.inherits.wire? hw hr

/-- A letter that has come in an act is one of a send over the link at its end. -/
theorem Step.posted (hstep : Step s x s') (hy : y ∈ s'.posted c) : y ∈ s.posted c ∨
    ∃ st, s.net.wire? y.ticket.addr y.ticket.peer = some ⟨c, y.parcel.event.peer, st⟩ := by
  cases hstep with
  | @sent a p bytes d l n parcel hl event held dispatches =>
    rw [posted_update] at hy
    rcases List.mem_append.mp hy with hold | hnew
    · exact Or.inl (List.mem_append_left _ hold)
    · split at hnew
      · rename_i hb
        subst hb
        rcases List.mem_cons.mp ((Letter.enqueue_perm _ _).mem_iff.mp hnew) with rfl | hold
        · refine Or.inr ⟨l.state, ?_⟩
          rw [event]
          exact Network.wire?_of_link? hl
        · exact Or.inl (List.mem_append_right _ hold)
      · exact Or.inl (List.mem_append_right _ hnew)
  | refused still lost => exact Or.inl hy
  | passed passes kept closed => exact Or.inl (passes.posted hy)

namespace Road

theorem step (hr : s.Road a p b q) (h : s.Kept) (hstep : Step s x s') : s'.Road a p b q where
  known := ⟨Nat.lt_of_lt_of_le hr.known.1 hstep.nextPeer_le, Nat.lt_of_lt_of_le hr.known.2 hstep.nextPeer_le⟩
  near hw := by
    obtain ⟨st, hw⟩ := hstep.wire? hw hr.known.1
    exact hr.near hw
  far hw := by
    obtain ⟨st, hw⟩ := hstep.wire? hw hr.known.2
    exact hr.far hw
  source hy hq := by
    rcases hstep.posted hy with hy | ⟨st, hw⟩
    · exact hr.source hy hq
    · rw [hq] at hw
      exact hr.far (h.net.paired hw)
  target hy ha hp := by
    rcases hstep.posted hy with hy | ⟨st, hw⟩
    · exact hr.target hy ha hp
    · rw [ha, hp] at hw
      exact hr.near hw

theorem use (hr : s.Road a p b q) (h : s.Kept) (hstep : Step s x s') : Use s x s' a p b q := by
  cases hstep with
  | @sent a₀ p₀ bytes d l n parcel hl event held dispatches =>
    have hw := Network.wire?_of_link? hl
    by_cases hown : a₀ = a ∧ p₀ = p
    · obtain ⟨rfl, rfl⟩ := hown
      obtain ⟨hremote, hpeer⟩ := hr.near hw
      refine .grown (y := ⟨parcel, ⟨s.log.length, a₀, p₀, bytes, d, .ok ()⟩⟩) hl ?_ held ?_ rfl ?_ fun {k} => ?_
      · exact (dispatches.link? a₀ p₀).trans (if_pos ⟨rfl, rfl⟩)
      · rw [event]
        exact hpeer
      · rw [← show l.remote = b from hremote]
        exact Function.update_self ..
      · refine (granted_snoc (t := ⟨s.log.length, a₀, p₀, bytes, d, .ok ()⟩) rfl).trans ?_
        simp [Except.isOk, Except.toBool]
    · -- The packet of another link is for another peer.
      have hother : b = l.remote → parcel.event.peer ≠ q := by
        rintro rfl hq
        rw [event] at hq
        have hfar := h.net.paired hw
        rw [show l.remotePeer = q from hq] at hfar
        exact hown (hr.far hfar)
      have hwaiting : ∀ {k}, tickets q k (if b = l.remote then Letter.enqueue
          ⟨parcel, ⟨s.log.length, a₀, p₀, bytes, d, .ok ()⟩⟩ (s.waiting l.remote) else s.waiting b) =
          tickets q k (s.waiting b) := by
        intro k
        split
        · rename_i hb
          rw [tickets_enqueue_of_not fun hq => hother hb hq.1, hb]
        · rfl
      refine .idle (fun {k} => ?_) (fun {k} hk => ?_) (fun {l'} hl' => ?_) fun {y} hy hq => ?_
      · rw [posted_update, tickets_append, hwaiting, ← tickets_append]
        rfl
      · refine (granted_snoc (t := ⟨s.log.length, a₀, p₀, bytes, d, .ok ()⟩) rfl).trans ?_
        rw [if_neg fun heq => hown ⟨heq.1, heq.2.1⟩, List.append_nil]
      · rw [dispatches.link?, if_neg hown] at hl'
        exact ⟨l', hl', rfl⟩
      · dsimp only at hy
        rw [Function.update_apply] at hy
        split at hy
        · rename_i hb
          rcases List.mem_cons.mp ((Letter.enqueue_perm _ _).mem_iff.mp hy) with rfl | hold
          · exact absurd hq (hother hb)
          · exact hb ▸ hold
        · exact hy
  | @refused a₀ p₀ bytes d n answer still lost =>
    refine .idle rfl (fun {k} hk => ?_) (fun {l'} hl' => ?_) fun hy _ => hy
    · refine (granted_snoc (t := ⟨s.log.length, a₀, p₀, bytes, d, answer⟩) rfl).trans ?_
      rw [if_neg, List.append_nil]
      rintro ⟨-, -, hd, hok⟩
      exact (nomatch (lost (hk _ hd)).symm.trans hok)
    · obtain ⟨l, hl, hline⟩ := still.link? hl' hr.known.1
      exact ⟨l, hl, (Prod.mk.inj (Prod.mk.inj hline).2).2⟩
  | passed passes kept closed =>
    by_cases hx : x = .close b
    · exact .lost hx (closed hx) passes.log
    · refine .idle (fun {k} => by rw [kept hx]) (fun _ => granted_of_log passes.log) (fun {l'} hl' => ?_) fun hy _ => passes.waiting hy
      obtain ⟨l, hl, hline⟩ := passes.inherits.link? hl' hr.known.1
      exact ⟨l, hl, (Prod.mk.inj (Prod.mk.inj hline).2).2⟩

end Road

/-! ### Links -/

/-- A road on which nothing has been lost. -/
structure Whole (s : Ledger) (a : Address) (p : Peer) (b : Address) (q : Peer) : Prop extends Road s a p b q where
  ceiling : ∀ {l y}, s.net.link? a p = some l → y ∈ s.waiting b → y.parcel.event.peer = q →
    y.ticket.delivery.isOrdered = true → y.parcel.release ≤ l.orderedRelease
  ordered : tickets q Delivery.isOrdered (s.posted b) = s.granted a p Delivery.isOrdered
  reliable : (tickets q Delivery.isReliable (s.posted b)).Perm (s.granted a p Delivery.isReliable)

/-- A road whose receiving endpoint may have been lost with what waited there. -/
structure Lane (s : Ledger) (a : Address) (p : Peer) (b : Address) (q : Peer) : Prop extends Road s a p b q where
  order : tickets q Delivery.isOrdered (s.posted b) <+: s.granted a p Delivery.isOrdered

/-- Between two acts, nothing has been lost at any link that there is. -/
structure Sound (s : Ledger) : Prop extends Kept s where
  whole : ∀ {a p b q st}, s.net.wire? a p = some ⟨b, q, st⟩ → s.Whole a p b q

theorem Whole.lane (hw : s.Whole a p b q) : s.Lane a p b q := ⟨hw.toRoad, hw.ordered ▸ List.prefix_refl _⟩

theorem Whole.step (hw : s.Whole a p b q) (h : s.Kept) (hstep : Step s x s') (hx : x ≠ .close b) :
    s'.Whole a p b q := by
  have hroad := hw.toRoad.step h hstep
  have hordered : ∀ d : Delivery, d.isOrdered = true → d.isReliable = true := fun _ => Delivery.isReliable_of_isOrdered
  cases hw.toRoad.use h hstep with
  | lost act => exact absurd act hx
  | idle htickets hgranted hlink hwaiting =>
    refine ⟨hroad, fun {l' y} hl' hy hq hd => ?_, ?_, ?_⟩
    · obtain ⟨l, hl, heq⟩ := hlink hl'
      rw [heq]
      exact hw.ceiling hl (hwaiting hy hq) hq hd
    · rw [htickets, hgranted hordered, hw.ordered]
    · rw [htickets, hgranted fun _ => id]
      exact hw.reliable
  | @grown l y hl hlater hheld hpeer htaken hwaiting hgranted =>
    have hposted : ∀ {k}, tickets q k (s'.posted b) = tickets q k (s.taken b) ++ tickets q k (y.enqueue (s.waiting b)) := by
      intro k
      rw [posted, htaken, hwaiting, tickets_append]
    have hold : ∀ {k}, tickets q k (s.posted b) = tickets q k (s.taken b) ++ tickets q k (s.waiting b) := tickets_append
    refine ⟨hroad, fun {l' z} hl' hz hq hd => ?_, ?_, ?_⟩
    · obtain rfl := Option.some.inj (hlater.symm.trans hl')
      rw [hwaiting] at hz
      rw [Link.heldTo]
      rcases List.mem_cons.mp ((Letter.enqueue_perm _ _).mem_iff.mp hz) with rfl | hz
      · simp only [if_pos hd, Nat.le_refl]
      · have hle := hw.ceiling hl hz hq hd
        split
        · rename_i hdy
          exact Nat.le_trans hle (hheld hdy)
        · exact hle
    · rw [hposted, hgranted, ← hw.ordered, hold]
      cases hd : y.ticket.delivery.isOrdered with
      | true =>
        -- The packet is released no earlier than the ordered ones before it, so it comes behind them.
        rw [tickets_enqueue_last hpeer hd (h.sorted b) fun z hz hq hdz =>
          Nat.le_trans (hw.ceiling hl hz hq hdz) (hheld hd), if_pos rfl, List.append_assoc]
      | false => rw [tickets_enqueue_of_not (by simp [hd]), if_neg Bool.false_ne_true, List.append_nil]
    · rw [hposted, hgranted]
      have hbefore := hw.reliable
      rw [hold] at hbefore
      cases hd : y.ticket.delivery.isReliable with
      | true =>
        rw [if_pos rfl]
        refine .trans ((tickets_enqueue_perm hpeer hd (s.waiting b)).append_left _) (.trans List.perm_middle ?_)
        exact (hbefore.cons _).trans (List.perm_append_singleton _ _).symm
      | false =>
        rw [tickets_enqueue_of_not (by simp [hd]), if_neg Bool.false_ne_true, List.append_nil]
        exact hbefore

theorem Lane.step (hl : s.Lane a p b q) (h : s.Sound) (hstep : Step s x s') : s'.Lane a p b q := by
  have hroad := hl.toRoad.step h.toKept hstep
  cases hl.toRoad.use h.toKept hstep with
  | idle htickets hgranted hlink hwaiting =>
    refine ⟨hroad, ?_⟩
    rw [htickets, hgranted fun _ => Delivery.isReliable_of_isOrdered]
    exact hl.order
  | lost act posted log =>
    refine ⟨hroad, ?_⟩
    rw [posted, granted_of_log log]
    refine List.IsPrefix.trans ?_ hl.order
    rw [Ledger.posted, tickets_append]
    exact List.prefix_append _ _
  | @grown l y link later held peer taken waiting granted =>
    -- There is a link, so nothing has been lost.
    have hw := Network.wire?_of_link? link
    obtain ⟨hremote, hpeer⟩ := hl.near hw
    have hwhole : s.Whole a p b q := by
      rw [← hremote, ← hpeer]
      exact h.whole hw
    refine (hwhole.step h.toKept hstep fun hx => ?_).lane
    subst hx
    cases hstep with
    | passed passes kept closed =>
      have hlog := congrArg List.length (granted (k := fun _ => true))
      rw [granted_of_log passes.log, if_pos rfl, List.length_append, List.length_singleton] at hlog
      omega

/-- A road between peers that have never been used has carried nothing. -/
theorem Whole.fresh {m : Nat} (h : s.Bounded m) (hroad : s.Road a p b q) (hp : m ≤ p.val) (hq : m ≤ q.val) :
    s.Whole a p b q := by
  have hletter : ∀ {y}, y ∈ s.posted b → y.parcel.event.peer ≠ q := by
    rintro y hy rfl
    have hlt := (h.letters hy).2.2.1
    omega
  have hgranted : ∀ {k}, (∀ d, k d = true → d.isReliable = true) → s.granted a p k = [] := by
    intro k hk
    refine List.filter_eq_nil_iff.mpr fun t ht hon => ?_
    simp only [Bool.and_eq_true, decide_eq_true_eq] at hon
    obtain ⟨⟨⟨-, rfl⟩, hkd⟩, hok⟩ := hon
    have hlt := h.granted ht (hk _ hkd) hok
    omega
  have htickets : ∀ {k}, tickets q k (s.posted b) = [] := tickets_eq_nil fun y hy => hletter hy
  refine ⟨hroad, fun _ hy hpeer _ => absurd hpeer (hletter (List.mem_append_right _ hy)), ?_, ?_⟩
  · rw [htickets, hgranted fun _ => Delivery.isReliable_of_isOrdered]
  · rw [htickets, hgranted fun _ => id]

theorem sound_create (luck : Nat → Luck) : (create luck).Sound where
  toKept := kept_create luck
  whole hw := by cases hw

theorem Sound.act (h : s.Sound) (x : Act) : (s.act x).Sound := by
  have hstep := h.toKept.step x
  have hkept := h.toKept.act x
  have hclosed : ∀ {b q w}, x = .close b → (s.act x).net.wire? b q ≠ some w := by
    rintro b q w rfl hw
    have hbound : (s.net.close b).isBound b = true := Network.isBound_of_wire? hw
    rw [(h.net.close b).2.2, if_pos rfl] at hbound
    cases hbound
  generalize s.act x = s' at hstep hkept hclosed ⊢
  refine ⟨hkept, fun {a p b q st} hw => ?_⟩
  by_cases hp : p.val < s.net.nextPeer
  · obtain ⟨st₀, hw₀⟩ := hstep.wire? hw hp
    exact (h.whole hw₀).step h.toKept hstep fun hx => hclosed hx (hkept.net.paired hw)
  · -- The link is new at both ends.
    have hq : ¬ q.val < s.net.nextPeer := fun hq => by
      obtain ⟨st₀, hw₀⟩ := hstep.wire? (hkept.net.paired hw) hq
      exact hp (h.net.fresh (h.net.paired hw₀))
    have hbounded := hstep.bounded h.toKept
    refine .fresh hbounded ⟨⟨hkept.net.fresh hw, hkept.net.fresh (hkept.net.paired hw)⟩, fun hw' => ?_, fun hw' => ?_,
      fun hy hpeer => ?_, fun hy _ hpeer => ?_⟩ (Nat.le_of_not_lt hp) (Nat.le_of_not_lt hq)
    · obtain ⟨rfl, rfl, -⟩ := Network.wire_inj hw hw'
      exact ⟨rfl, rfl⟩
    · obtain ⟨rfl, rfl, -⟩ := Network.wire_inj (hkept.net.paired hw) hw'
      exact ⟨rfl, rfl⟩
    · have hlt := (hbounded.letters hy).2.2.1
      rw [hpeer] at hlt
      exact absurd hlt hq
    · have hlt := (hbounded.letters hy).2.1
      rw [hpeer] at hlt
      exact absurd hlt hp

theorem Sound.acts (h : s.Sound) (xs : List Act) : (xs.foldl Ledger.act s).Sound := by
  induction xs generalizing s with
  | nil => exact h
  | cons x xs ih => exact ih (h.act x)

theorem Lane.acts (hl : s.Lane a p b q) (h : s.Sound) (xs : List Act) : (xs.foldl Ledger.act s).Lane a p b q := by
  induction xs generalizing s with
  | nil => exact hl
  | cons x xs ih => exact ih (hl.step h (h.toKept.step x)) (h.act x)

theorem Whole.acts (hw : s.Whole a p b q) (h : s.Sound) {xs : List Act} (hxs : .close b ∉ xs) :
    (xs.foldl Ledger.act s).Whole a p b q := by
  induction xs generalizing s with
  | nil => exact hw
  | cons x xs ih =>
    refine ih (hw.step h.toKept (h.toKept.step x) fun hx => hxs (hx ▸ List.mem_cons_self)) (h.act x) fun hmem => ?_
    exact hxs (List.mem_cons_of_mem _ hmem)

/-! ### Delivery -/

theorem Kept.ascending (h : s.Kept) : s.log.Pairwise fun t u => t.number < u.number := by
  have hrange : (s.log.map (·.number)).Pairwise (· < ·) := h.numbers ▸ List.pairwise_lt_range
  exact List.pairwise_map.mp hrange

theorem Kept.nodup_numbers (h : s.Kept) : (s.log.map (·.number)).Nodup := h.numbers ▸ List.nodup_range

/-- A send is known by its number. -/
theorem Kept.eq_of_number (h : s.Kept) {u : Ticket} (ht : t ∈ s.log) (hu : u ∈ s.log) (heq : u.number = t.number) :
    u = t := List.inj_on_of_nodup_map h.nodup_numbers hu ht heq

/-- What has arrived in the order of the sends has arrived after all that was sent before it. -/
theorem Lane.before (hl : s.Lane a p b q) (h : s.Kept) {xs ys : List Ticket} {u : Ticket}
    (ht : t ∈ s.granted a p Delivery.isOrdered) (hu : tickets q Delivery.isOrdered (s.posted b) = xs ++ u :: ys)
    (hlt : t.number < u.number) : t ∈ xs := by
  obtain ⟨rest, hrest⟩ := hl.order
  have hascending : (s.granted a p Delivery.isOrdered).Pairwise fun t u => t.number < u.number := h.ascending.filter _
  rw [← hrest, hu, List.append_assoc] at ht hascending
  rcases List.mem_append.mp ht with ht | ht
  · exact ht
  · have hafter := (List.pairwise_cons.mp (List.pairwise_append.mp hascending).2.1).1
    rcases List.mem_cons.mp ht with rfl | ht
    · omega
    · have hgt := hafter t ht
      omega

/-- A reliable packet that the transport has taken is there once, and is what was sent. -/
theorem Whole.once (hw : s.Whole a p b q) (h : s.Kept) (ht : t ∈ s.granted a p Delivery.isReliable) :
    ∃ y, (s.posted b).filter (fun y => y.ticket.number = t.number) = [y] ∧ y.parcel.event = .data q t.bytes := by
  obtain ⟨hlog, hon⟩ := List.mem_filter.mp ht
  simp only [Bool.and_eq_true, decide_eq_true_eq] at hon
  obtain ⟨⟨⟨haddr, hpeer⟩, hrel⟩, -⟩ := hon
  have hticket : ∀ {y}, y ∈ s.posted b → y.ticket.number = t.number → y.ticket = t ∧ y.parcel.event.peer = q := by
    intro y hy hnumber
    have heq := h.eq_of_number hlog (h.bounded.letters hy).1 hnumber
    exact ⟨heq, (hw.target hy (heq ▸ haddr) (heq ▸ hpeer)).2⟩
  -- Among the sends that were granted there is one of this number.
  have hone : (s.granted a p Delivery.isReliable).filter (fun u => u.number = t.number) = [t] := by
    have hnodup : (s.granted a p Delivery.isReliable).Nodup := (List.Nodup.of_map _ h.nodup_numbers).filter _
    have hall : ∀ u ∈ (s.granted a p Delivery.isReliable).filter (fun u => u.number = t.number), u = t := by
      intro u hu
      obtain ⟨hu, hnumber⟩ := List.mem_filter.mp hu
      exact h.eq_of_number hlog (List.mem_filter.mp hu).1 (of_decide_eq_true hnumber)
    have hmem : t ∈ (s.granted a p Delivery.isReliable).filter (fun u => u.number = t.number) :=
      List.mem_filter.mpr ⟨ht, decide_eq_true rfl⟩
    have hnodup' := hnodup.filter fun u => decide (u.number = t.number)
    generalize (s.granted a p Delivery.isReliable).filter (fun u => u.number = t.number) = us at hall hmem hnodup'
    match us with
    | [] => cases hmem
    | [u] => rw [hall u List.mem_cons_self]
    | u :: v :: us =>
      have huv : u = v := (hall u List.mem_cons_self).trans (hall v (List.mem_cons_of_mem _ List.mem_cons_self)).symm
      exact absurd (huv ▸ List.mem_cons_self) (List.nodup_cons.mp hnodup').1
  have hletters : ((s.posted b).filter fun y => y.ticket.number = t.number).map (·.ticket) =
      (tickets q Delivery.isReliable (s.posted b)).filter fun u => u.number = t.number := by
    rw [tickets, List.filter_map, List.filter_filter]
    congr 1
    refine List.filter_congr fun y hy => ?_
    by_cases hnumber : y.ticket.number = t.number
    · obtain ⟨heq, hq⟩ := hticket hy hnumber
      simp [hq, heq, hrel]
    · simp [hnumber]
  have hperm := hw.reliable.filter fun u => u.number = t.number
  rw [hone, ← hletters, List.perm_singleton] at hperm
  obtain ⟨y, hy, rfl⟩ := List.map_eq_singleton_iff.mp hperm
  refine ⟨y, hy, ?_⟩
  have hposted : y ∈ s.posted b := (List.mem_filter.mp (hy ▸ List.mem_singleton_self y)).1
  rw [(h.bounded.letters hposted).2.2.2, (hticket hposted rfl).2]

/-- Whatever is done on a network, and whatever delay each packet gets: of the packets that were sent over a link, the
    ordered ones have been polled at its other end in the order in which they were sent, from the first one on, and
    unaltered. None of them arrives before one that was sent earlier. And as long as the other endpoint is not closed
    each reliable packet has been polled or is on its way, once. -/
theorem run_delivers (luck : Nat → Luck) (before after : List Act) :
    let s := run luck before
    let s' := after.foldl act s
    s'.LooksOn (Network.create luck) (before ++ after) ∧
    ∀ {a p b q st}, s.net.wire? a p = some ⟨b, q, st⟩ →
      tickets q Delivery.isOrdered (s'.taken b) <+: s'.granted a p Delivery.isOrdered ∧
      (∀ y ∈ s'.taken b, y.parcel.event = .data y.parcel.event.peer y.ticket.bytes) ∧
      (∀ {xs t ys u}, tickets q Delivery.isOrdered (s'.taken b) = xs ++ t :: ys →
        u ∈ s'.granted a p Delivery.isOrdered → u.number < t.number → u ∈ xs) ∧
      (.close b ∉ after → ∀ t ∈ s'.granted a p Delivery.isReliable, ∃ y,
        (s'.taken b ++ s'.waiting b).filter (fun y => y.ticket.number = t.number) = [y] ∧
          y.parcel.event = .data q t.bytes) := by
  intro s s'
  have hsound : s.Sound := (sound_create luck).acts before
  have hsound' : s'.Sound := hsound.acts after
  refine ⟨?_, fun {a p b q st} hw => ?_⟩
  · have hrun : s' = run luck (before ++ after) := (List.foldl_append ..).symm
    rw [hrun]
    exact run_looksOn luck _
  · have hlane : s'.Lane a p b q := (hsound.whole hw).lane.acts hsound after
    have hposted : tickets q Delivery.isOrdered (s'.posted b) =
        tickets q Delivery.isOrdered (s'.taken b) ++ tickets q Delivery.isOrdered (s'.waiting b) := tickets_append
    refine ⟨?_, fun y hy => (hsound'.bounded.letters (List.mem_append_left _ hy)).2.2.2, ?_, ?_⟩
    · exact (hposted ▸ List.prefix_append _ _).trans hlane.order
    · intro xs t ys u hxs hu hlt
      rw [hxs, List.append_assoc] at hposted
      exact hlane.before hsound'.toKept hu hposted hlt
    · intro hopen t ht
      exact ((hsound.whole hw).acts hsound hopen).once hsound'.toKept ht

/-- The second packet could be there at once, but waits for the first one, which is late. -/
example :
    let here := Network.loopback 1
    let there := Network.loopback 2
    let late : Impairment := { enabled := true, loss := ⟨0⟩, minLatency := 5, maxLatency := 5, jitter := 0 }
    let s := run (fun _ => ⟨0, 0, 0⟩)
      [.bind here, .bind there, .start there, .connect here there, .approve there ⟨2⟩, .poll there, .poll there,
        .setImpairment here late, .send here ⟨1⟩ [1] .ordered, .setImpairment here .off, .send here ⟨1⟩ [2] .ordered,
        .poll there, .elapse (5 * Network.millisecond), .poll there, .poll there]
    (s.taken there).map (·.ticket.bytes) = [[1], [2]] := by decide

end Ledger
end StateSync
