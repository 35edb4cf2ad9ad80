import Mathlib.Algebra.GroupWithZero.Nat
import StateSync.Proofs.Transport.Ends

/-! The rate limit of an endpoint, over packets that it sends to its peers one after another while one second of the
    limit lasts. All packets use the budget, but only unreliable ones are held to it, and those that are dropped use
    none of it (`Accounts`). -/

namespace StateSync

/-- A packet to be sent, and how long after the one before it. -/
structure Sending where
  wait : Nat
  peer : Peer
  bytes : Bytes
  delivery : Delivery
  deriving DecidableEq

/-- What has come of a packet. -/
structure Receipt where
  packet : Sending
  answer : Except NetError Unit
  /-- Whether the simulation has it lost, if it is one that may be. -/
  unlucky : Bool
  /-- Whether its sender counts one more packet as dropped. -/
  dropped : Bool

/-- The bytes that were transmitted. -/
def Receipt.load (r : Receipt) : Nat := if r.dropped then 0 else r.packet.bytes.length

def transmitted (rs : List Receipt) : Nat := (rs.map Receipt.load).sum

theorem transmitted_cons (r : Receipt) (rs : List Receipt) : transmitted (r :: rs) = r.load + transmitted rs :=
  List.sum_cons

theorem transmitted_append (rs ss : List Receipt) : transmitted (rs ++ ss) = transmitted rs + transmitted ss := by
  rw [transmitted, List.map_append, List.sum_append]
  rfl

theorem transmitted_singleton (r : Receipt) : transmitted [r] = r.load := Nat.add_zero _

/-- What an endpoint has counted, before packets and after them. -/
structure Tally (e e' : Endpoint) (rs : List Receipt) : Prop where
  rateLimit : e'.rateLimit = e.rateLimit
  windowStart : e'.windowStart = e.windowStart
  windowBytes : e'.windowBytes = e.windowBytes + transmitted rs
  bytesSent : e'.traffic.bytesSent = e.traffic.bytesSent + transmitted rs
  dropped : e'.traffic.dropped = e.traffic.dropped + rs.countP (·.dropped)
  packets : e'.traffic.sent + e'.traffic.dropped = e.traffic.sent + e.traffic.dropped + rs.length

theorem Tally.nil (e : Endpoint) : Tally e e [] := ⟨rfl, rfl, rfl, rfl, rfl, rfl⟩

theorem Tally.cons {e e₁ e' : Endpoint} {r : Receipt} {rs : List Receipt} (hr : Tally e e₁ [r]) (h : Tally e₁ e' rs) :
    Tally e e' (r :: rs) where
  rateLimit := h.rateLimit.trans hr.rateLimit
  windowStart := h.windowStart.trans hr.windowStart
  windowBytes := by rw [h.windowBytes, hr.windowBytes, transmitted_singleton, transmitted_cons, Nat.add_assoc]
  bytesSent := by rw [h.bytesSent, hr.bytesSent, transmitted_singleton, transmitted_cons, Nat.add_assoc]
  dropped := by
    rw [h.dropped, hr.dropped, Nat.add_assoc, ← List.countP_append]
    rfl
  packets := by
    rw [h.packets, hr.packets, Nat.add_assoc, ← List.length_append]
    rfl

/-- An endpoint by its limit and its counts, without its links and what comes to it. -/
def Endpoint.meter (e : Endpoint) : Endpoint := { e with inbox := [], links := Assoc.empty }

theorem Tally.of_meter {e e' w : Endpoint} {rs : List Receipt} (h : Tally e w rs) (hm : e'.meter = w.meter) :
    Tally e e' rs := by
  have hread : ∀ {α : Type} (f : Endpoint → α), f e'.meter = f w.meter := fun f => congrArg f hm
  have hlimit : e'.rateLimit = w.rateLimit := hread Endpoint.rateLimit
  have hstart : e'.windowStart = w.windowStart := hread Endpoint.windowStart
  have hbytes : e'.windowBytes = w.windowBytes := hread Endpoint.windowBytes
  have htraffic : e'.traffic = w.traffic := hread Endpoint.traffic
  constructor
  · rw [hlimit, h.rateLimit]
  · rw [hstart, h.windowStart]
  · rw [hbytes, h.windowBytes]
  · rw [htraffic, h.bytesSent]
  · rw [htraffic, h.dropped]
  · rw [htraffic, h.packets]

namespace Network
variable {n n' n₁ : Network} {a b : Address} {p q : Peer} {e e' e₁ : Endpoint} {x : Sending} {xs : List Sending}
  {r : Receipt} {rs : List Receipt} {bytes : Bytes} {d : Delivery} {st : LinkState} {t : Nat}

/-! ### Sending packets -/

/-- Whether the simulation has the next packet of an endpoint lost, if it is one that may be. -/
def loses (n : Network) (a : Address) : Bool :=
  (n.endpoint? a).any fun e => e.impairment.drops (n.luck n.sends).loss

def sendOne (n : Network) (a : Address) (x : Sending) : Receipt × Network :=
  let n := n.elapse x.wait
  let (answer, n') := n.send a x.peer x.bytes x.delivery
  (⟨x, answer, n.loses a, (n.traffic a).dropped < (n'.traffic a).dropped⟩, n')

def sendMany (n : Network) (a : Address) : List Sending → List Receipt × Network
  | [] => ([], n)
  | x :: xs =>
    let (r, n) := n.sendOne a x
    let (rs, n) := n.sendMany a xs
    (r :: rs, n)

/-- The endpoint as its limit sees it when a packet is sent: a packet that is held to the limit starts the second anew
    if it is over. -/
def windowed (n : Network) (e : Endpoint) (d : Delivery) : Endpoint :=
  if d.isReliable || e.impairment.drops (n.luck n.sends).loss then e else restartWindow n.clock e

/-- The endpoint in the second in which the first of some packets is sent. -/
def opening (n : Network) (e : Endpoint) : List Sending → Endpoint
  | [] => e
  | x :: _ => (n.elapse x.wait).windowed e x.delivery

/-- What comes of a packet at an address. -/
def arrival? (n : Network) (a b : Address) (r : Receipt) : Option TransportEvent :=
  if r.dropped then none
  else (n.wire? a r.packet.peer).bind fun w =>
    if w.remote = b then some (.data w.remotePeer r.packet.bytes) else none

/-- What has come of packets that were sent from an address, from the network `n` to `n'`, in the second of the endpoint
    `e`. Only what is transmitted uses the budget; an unreliable packet is dropped exactly if the simulation has it lost
    or there is too little left for it. -/
structure Accounts (n n' : Network) (a : Address) (e : Endpoint) (rs : List Receipt) : Prop where
  answered : ∀ r ∈ rs, r.answer = .ok ()
  reliable : ∀ r ∈ rs, r.packet.delivery.isReliable = true → r.dropped = false
  unreliable : ∀ before r after, rs = before ++ r :: after → r.packet.delivery.isReliable = false →
    (r.dropped = true ↔ r.unlucky = true ∨
      0 < e.rateLimit ∧ e.rateLimit < e.windowBytes + transmitted before + r.packet.bytes.length)
  counted : ∃ e', n'.endpoint? a = some e' ∧ Tally e e' rs
  queued : ∀ b, ((n'.inbox b).map (·.event)).Perm ((n.inbox b).map (·.event) ++ rs.filterMap (n.arrival? a b))

/-! ### One packet -/

def meter? (n : Network) (a : Address) : Option Endpoint := (n.endpoint? a).map Endpoint.meter

theorem meter?_update {f : Endpoint → Endpoint} (hf : ∀ e, (f e).meter = f e.meter) (n : Network) (a : Address) :
    (n.update a f).meter? a = (n.meter? a).map f := by
  rw [meter?, endpoint?_update, if_pos rfl, meter?, Option.map_map, Option.map_map]
  exact congrArg (Option.map · _) (funext hf)

theorem meter?_post (n : Network) (b : Address) (release : Nat) (ev : TransportEvent) (a : Address) :
    (n.post b release ev).meter? a = n.meter? a :=
  map_endpoint?_update (f := fun e => { e with inbox := Parcel.enqueue ⟨release, ev⟩ e.inbox }) (fun _ => rfl) n b a

theorem meter?_setLink (n : Network) (b : Address) (p : Peer) (l : Link) (a : Address) :
    (n.setLink b p l).meter? a = n.meter? a :=
  map_endpoint?_update (f := fun e => { e with links := e.links.insert p l }) (fun _ => rfl) n b a

/-- What an endpoint counts for a packet. -/
def counting (dropped : Bool) (bytes : Bytes) (e : Endpoint) : Endpoint :=
  if dropped then countDropped e else countSent bytes.length e

theorem tally_counting (e : Endpoint) (r : Receipt) : Tally e (counting r.dropped r.packet.bytes e) [r] := by
  cases hr : r.dropped with
  | true =>
    have hload : transmitted [r] = 0 := by rw [transmitted_singleton, Receipt.load, if_pos hr]
    refine ⟨rfl, rfl, ?_, ?_, ?_, rfl⟩
    · rw [hload]
      rfl
    · rw [hload]
      rfl
    · rw [List.countP_singleton, if_pos hr]
      rfl
  | false =>
    have hload : transmitted [r] = r.packet.bytes.length := by
      rw [transmitted_singleton, Receipt.load, if_neg (ne_true_of_eq_false hr)]
    refine ⟨rfl, rfl, ?_, ?_, ?_, Nat.add_right_comm ..⟩
    · rw [hload]
      rfl
    · rw [hload]
      rfl
    · rw [List.countP_singleton, if_neg (ne_true_of_eq_false hr)]
      rfl

theorem traffic_eq (he : n.meter? a = some e.meter) : n.traffic a = e.traffic := by
  obtain ⟨e', he', hmeter⟩ := Option.map_eq_some_iff.mp he
  have htraffic : e'.meter.traffic = e.meter.traffic := congrArg Endpoint.traffic hmeter
  rw [traffic, he']
  exact htraffic

/-- What a packet comes to whose sender is in the second of the endpoint `e`: it is counted as dropped and noticed by
    nobody, or counted as sent and on its way to the other end. -/
structure Comes (n n' : Network) (a b : Address) (q : Peer) (bytes : Bytes) (e : Endpoint) (dropped : Bool) :
    Prop where
  meter? : n'.meter? a = some (counting dropped bytes e).meter
  quiet : dropped = true → Quiet n n'
  posts : dropped = false → Posts n n' b q bytes

theorem Comes.of_transmit (hq : Quiet n n₁) (hm : n₁.meter? a = some e.meter)
    (hw : n.wire? a p = some ⟨b, q, .connected⟩) (bytes : Bytes) (d : Delivery) (delay : Nat) :
    ∃ n', n₁.transmit a p bytes d delay = (.ok (), n') ∧ Comes n n' a b q bytes e false := by
  have hw₁ := (hq.wire? a p).trans hw
  obtain ⟨n', heq, hposts⟩ := transmit_connected hw₁ bytes d delay
  refine ⟨n', heq, ?_, nofun, fun _ => .quiet hq hposts⟩
  obtain ⟨l, hl, hwire⟩ := link?_of_wire? hw₁
  rw [transmit_eq hl (Wire.mk.inj hwire).2.2] at heq
  obtain ⟨-, rfl⟩ := Prod.mk.inj heq
  rw [meter?_update (f := countSent bytes.length) fun _ => rfl, meter?_post]
  split
  · rw [meter?_setLink, hm]
    rfl
  · rw [hm]
    rfl

theorem Comes.of_drop (hq : Quiet n n₁) (hm : n₁.meter? a = some e.meter) (b : Address) (q : Peer) (bytes : Bytes) :
    Comes n (n₁.update a countDropped) a b q bytes e true where
  meter? := by
    rw [meter?_update (f := countDropped) fun _ => rfl, hm]
    rfl
  quiet _ := hq.trans (.update (f := countDropped) (fun _ => ⟨rfl, rfl, rfl⟩) n₁ a)
  posts := nofun

theorem meter_restartWindow (now : Nat) (e : Endpoint) : (restartWindow now e).meter = restartWindow now e.meter := by
  unfold restartWindow
  exact apply_ite ..

/-- Whether a packet is dropped, whose sender is in the second of the endpoint `e`. -/
def isDropped (n : Network) (a : Address) (e : Endpoint) (bytes : Bytes) (d : Delivery) : Bool :=
  !d.isReliable && (n.loses a || isOverBudget e bytes.length)

theorem comes_send (he : n.endpoint? a = some e) (hw : n.wire? a p = some ⟨b, q, .connected⟩) (bytes : Bytes)
    (d : Delivery) :
    ∃ n', n.send a p bytes d = (.ok (), n') ∧
      Comes n n' a b q bytes (n.windowed e d) (n.isDropped a (n.windowed e d) bytes d) := by
  let n₁ : Network := { n with sends := n.sends + 1 }
  have hq : Quiet n n₁ := Quiet.sends n
  have hm : n₁.meter? a = some e.meter := congrArg (Option.map Endpoint.meter) he
  have hloses : n.loses a = e.impairment.drops (n.luck n.sends).loss := by rw [loses, he]; rfl
  rw [send_eq he]
  by_cases hrel : d.isReliable = true
  · have hwindow : n.windowed e d = e := by simp [windowed, hrel]
    have hkept : n.isDropped a e bytes d = false := by simp [isDropped, hrel]
    rw [if_pos hrel, hwindow, hkept]
    exact Comes.of_transmit (hq.trans (.noteDelay ..)) hm hw bytes d _
  · rw [if_neg hrel]
    by_cases hloss : e.impairment.drops (n.luck n.sends).loss = true
    · have hwindow : n.windowed e d = e := by simp [windowed, hloss]
      have hdrop : n.isDropped a e bytes d = true := by simp [isDropped, hrel, hloses, hloss]
      rw [if_pos hloss, hwindow, hdrop]
      exact ⟨_, rfl, .of_drop hq hm b q bytes⟩
    · have hwindow : n.windowed e d = restartWindow n.clock e := by simp [windowed, hrel, hloss]
      have hdrop : n.isDropped a (restartWindow n.clock e) bytes d =
          isOverBudget (restartWindow n.clock e) bytes.length := by simp [isDropped, hrel, hloses, hloss]
      have hq₂ : Quiet n (n₁.update a (restartWindow n.clock)) := hq.trans (.update (restartWindow_keeps n.clock) n₁ a)
      have hm₂ : (n₁.update a (restartWindow n.clock)).meter? a = some (restartWindow n.clock e).meter := by
        rw [meter?_update (meter_restartWindow n.clock), hm, meter_restartWindow, Option.map_some]
      rw [if_neg hloss, hwindow, hdrop]
      by_cases hover : isOverBudget (restartWindow n.clock e) bytes.length = true
      · rw [if_pos hover, hover]
        exact ⟨_, rfl, .of_drop hq₂ hm₂ b q bytes⟩
      · rw [if_neg hover, eq_false_of_ne_true hover]
        exact Comes.of_transmit (hq₂.trans (.noteDelay ..)) hm₂ hw bytes d _

theorem traffic_windowed (he : n.endpoint? a = some e) (d : Delivery) : n.traffic a = (n.windowed e d).traffic := by
  rw [traffic, he, windowed, restartWindow]
  split
  · rfl
  · split <;> rfl

/-- The counts of the sender tell what has come of a packet. -/
theorem Comes.counted {k : Bool} (h : Comes n n' a b q bytes e k) (ht : n.traffic a = e.traffic) :
    decide ((n.traffic a).dropped < (n'.traffic a).dropped) = k := by
  rw [ht, traffic_eq h.meter?]
  cases k <;> simp [counting, countDropped, countSent]

theorem comes_sendOne (he : n.endpoint? a = some e) (hw : n.wire? a x.peer = some ⟨b, q, .connected⟩) :
    let n₀ := n.elapse x.wait
    let w := n₀.windowed e x.delivery
    let dropped := n₀.isDropped a w x.bytes x.delivery
    ∃ n', n.sendOne a x = (⟨x, .ok (), n₀.loses a, dropped⟩, n') ∧ Comes n₀ n' a b q x.bytes w dropped := by
  intro n₀ w dropped
  obtain ⟨n', heq, hcomes⟩ := comes_send (n := n₀) he hw x.bytes x.delivery
  refine ⟨n', ?_, hcomes⟩
  rw [sendOne, heq]
  dsimp only
  rw [hcomes.counted (traffic_windowed (n := n₀) he x.delivery)]

namespace Comes
variable {k : Bool}

theorem clock (h : Comes n n' a b q bytes e k) : n'.clock = n.clock := by
  cases k with
  | true => exact (h.quiet rfl).clock
  | false =>
    obtain ⟨release, -, hq⟩ := h.posts rfl
    exact hq.clock

theorem wire? (h : Comes n n' a b q bytes e k) (c : Address) (r : Peer) : n'.wire? c r = n.wire? c r := by
  cases k with
  | true => exact (h.quiet rfl).wire? c r
  | false => exact (h.posts rfl).wire? c r

theorem sound (h : Comes n n' a b q bytes e k) (hn : n.Sound) (hw : n.wire? a p = some ⟨b, q, st⟩) : n'.Sound := by
  cases k with
  | true => exact hn.quiet (h.quiet rfl)
  | false => exact (Deals.of_posts hn hw (h.posts rfl)).sound

theorem inbox (h : Comes n n' a b q bytes e k) (hbound : n.isBound b = true) (c : Address) :
    ((n'.inbox c).map (·.event)).Perm
      ((n.inbox c).map (·.event) ++ if k = false ∧ b = c then [.data q bytes] else []) := by
  cases k with
  | true =>
    rw [(h.quiet rfl).inbox, if_neg (by simp), List.append_nil]
  | false =>
    obtain ⟨release, -, hq⟩ := h.posts rfl
    rw [hq.inbox, inbox_post]
    by_cases hc : b = c
    · rw [if_pos ⟨hc, hbound⟩, if_pos ⟨rfl, hc⟩]
      exact ((Parcel.enqueue_perm _ _).map _).trans (List.perm_append_singleton _ _).symm
    · rw [if_neg fun h => hc h.1, if_neg fun h => hc h.2, List.append_nil]

end Comes

/-! ### Packets one after another -/

theorem Accounts.nil (he : n.endpoint? a = some e) : Accounts n n a e [] where
  answered _ hr := absurd hr List.not_mem_nil
  reliable _ hr := absurd hr List.not_mem_nil
  unreliable before r after h := absurd h (by simp)
  counted := ⟨e, he, .nil e⟩
  queued c := by simp

theorem isOverBudget_iff (e : Endpoint) (length : Nat) :
    isOverBudget e length = true ↔ 0 < e.rateLimit ∧ e.rateLimit < e.windowBytes + length := by
  simp [isOverBudget, Nat.pos_iff_ne_zero]

/-- One more packet before the others. -/
theorem Accounts.cons (hanswer : r.answer = .ok ())
    (hdropped : r.dropped = (!r.packet.delivery.isReliable && (r.unlucky || isOverBudget e r.packet.bytes.length)))
    (htally : Tally e e₁ [r]) (hwire : ∀ p, n₁.wire? a p = n.wire? a p)
    (harrives : ∀ c, ((n₁.inbox c).map (·.event)).Perm ((n.inbox c).map (·.event) ++ (n.arrival? a c r).toList))
    (h : Accounts n₁ n' a e₁ rs) : Accounts n n' a e (r :: rs) where
  answered := List.forall_mem_cons.mpr ⟨hanswer, h.answered⟩
  reliable := List.forall_mem_cons.mpr ⟨fun hrel => by simp [hdropped, hrel], h.reliable⟩
  unreliable before r' after hsplit hrel := by
    rcases List.cons_eq_append_iff.mp hsplit with ⟨rfl, heq⟩ | ⟨before', rfl, heq⟩
    · obtain ⟨rfl, -⟩ := List.cons.inj heq
      rw [hdropped, hrel, Bool.not_false, Bool.true_and, Bool.or_eq_true, isOverBudget_iff]
      rfl
    · rw [h.unreliable before' r' after heq hrel, htally.rateLimit, htally.windowBytes, transmitted_singleton,
        transmitted_cons, ← Nat.add_assoc]
  counted := by
    obtain ⟨e', he', htail⟩ := h.counted
    exact ⟨e', he', htally.cons htail⟩
  queued c := by
    have hsame : n₁.arrival? a c = n.arrival? a c := funext fun r => by rw [arrival?, hwire, arrival?]
    have hall : (r :: rs).filterMap (n.arrival? a c) = (n.arrival? a c r).toList ++ rs.filterMap (n.arrival? a c) := by
      rw [List.filterMap_cons]
      cases n.arrival? a c r <;> rfl
    rw [hall, ← List.append_assoc]
    exact (hsame ▸ h.queued c).trans ((harrives c).append_right _)

theorem Comes.arrives (h : Comes (n.elapse t) n₁ a b q r.packet.bytes e r.dropped)
    (hw : n.wire? a r.packet.peer = some ⟨b, q, .connected⟩) (hbound : n.isBound b = true) (c : Address) :
    ((n₁.inbox c).map (·.event)).Perm ((n.inbox c).map (·.event) ++ (n.arrival? a c r).toList) := by
  have hone : (n.arrival? a c r).toList = if r.dropped = false ∧ b = c then [.data q r.packet.bytes] else [] := by
    rw [arrival?, hw]
    cases r.dropped with
    | true => rfl
    | false => simp [apply_ite]
  rw [hone]
  exact h.inbox hbound c

/-- Before the second is over nothing starts it anew. -/
theorem opening_of_lt (h : n.clock + (xs.map (·.wait)).sum < e.windowStart + rateWindow) : n.opening e xs = e := by
  cases xs with
  | nil => rfl
  | cons x xs =>
    rw [List.map_cons, List.sum_cons] at h
    rw [opening, windowed]
    split
    · rfl
    · rw [restartWindow, if_neg]
      show ¬ e.windowStart + rateWindow ≤ n.clock + x.wait
      omega

theorem Sound.accounts (hn : n.Sound) (he : n.endpoint? a = some e)
    (hlinked : ∀ x ∈ xs, ∃ b q, n.wire? a x.peer = some ⟨b, q, .connected⟩)
    (htime : n.clock + (xs.map (·.wait)).sum < (n.opening e xs).windowStart + rateWindow) :
    (n.sendMany a xs).1.map (·.packet) = xs ∧
      Accounts n (n.sendMany a xs).2 a (n.opening e xs) (n.sendMany a xs).1 := by
  induction xs generalizing n e with
  | nil => exact ⟨rfl, .nil he⟩
  | cons x xs ih =>
    obtain ⟨⟨b, q, hw⟩, hothers⟩ := List.forall_mem_cons.mp hlinked
    obtain ⟨n₁, heq, hcomes⟩ := comes_sendOne he hw
    let n₀ := n.elapse x.wait
    let w := n.opening e (x :: xs)
    let r : Receipt := ⟨x, .ok (), n₀.loses a, n₀.isDropped a w x.bytes x.delivery⟩
    have hone : Comes n₀ n₁ a b q r.packet.bytes w r.dropped := hcomes
    obtain ⟨e₁, he₁, hmeter⟩ := Option.map_eq_some_iff.mp hone.meter?
    have htally : Tally w e₁ [r] := (tally_counting w r).of_meter hmeter
    have hclock : n₁.clock = n.clock + x.wait := hone.clock
    have hrest : n₁.clock + (xs.map (·.wait)).sum < e₁.windowStart + rateWindow := by
      rw [hclock, htally.windowStart, Nat.add_assoc, ← List.sum_cons, ← List.map_cons (f := Sending.wait)]
      exact htime
    have hlinked₁ : ∀ y ∈ xs, ∃ b q, n₁.wire? a y.peer = some ⟨b, q, .connected⟩ := fun y hy => by
      rw [hone.wire?]
      exact hothers y hy
    have hopening : n₁.opening e₁ xs = e₁ := opening_of_lt hrest
    obtain ⟨hpackets, haccounts⟩ := ih (hone.sound (hn.elapse x.wait) hw) he₁ hlinked₁ (hopening.symm ▸ hrest)
    rw [hopening] at haccounts
    rw [sendMany, heq]
    exact ⟨congrArg (x :: ·) hpackets,
      .cons rfl rfl htally (hone.wire? a) (hone.arrives hw (isBound_of_wire? (hn.paired hw))) haccounts⟩

theorem opening_keeps (n : Network) (e : Endpoint) (xs : List Sending) :
    (n.opening e xs).rateLimit = e.rateLimit ∧ (n.opening e xs).traffic = e.traffic := by
  cases xs with
  | nil => exact ⟨rfl, rfl⟩
  | cons x xs =>
    rw [opening, windowed, restartWindow]
    split
    · exact ⟨rfl, rfl⟩
    · split <;> exact ⟨rfl, rfl⟩

/-- Whatever has been done before, packets of any size and delivery that an endpoint sends to connected peers within one
    second of its limit come to what `Accounts` tells, with the endpoint as it is when the second begins or the first of
    them is sent in it. So no unreliable packet that is transmitted takes the bytes of the second above the limit. -/
theorem run_accounts (luck : Nat → Luck) (acts : List Act) (a : Address) (e : Endpoint) (xs : List Sending) :
    let n := (create luck).run acts
    let w := n.opening e xs
    let rs := (n.sendMany a xs).1
    n.endpoint? a = some e → (∀ x ∈ xs, ∃ b q, n.wire? a x.peer = some ⟨b, q, .connected⟩) →
      n.clock + (xs.map (·.wait)).sum < w.windowStart + rateWindow →
      rs.map (·.packet) = xs ∧ (w.rateLimit = e.rateLimit ∧ w.traffic = e.traffic) ∧
      Accounts n (n.sendMany a xs).2 a w rs ∧
      ∀ before r after, rs = before ++ r :: after → r.packet.delivery.isReliable = false → r.dropped = false →
        0 < e.rateLimit → w.windowBytes + transmitted (before ++ [r]) ≤ e.rateLimit := by
  intro n w rs he hlinked htime
  have hsound : n.Sound := (run_acted _ acts).sound (sound_create luck)
  have hkeeps := n.opening_keeps e xs
  obtain ⟨hpackets, haccounts⟩ := hsound.accounts he hlinked htime
  refine ⟨hpackets, hkeeps, haccounts, fun before r after hsplit hrel hkept hlimit => ?_⟩
  have hdropped := haccounts.unreliable before r after hsplit hrel
  rw [hkeeps.1] at hdropped
  have hwithin : ¬ e.rateLimit < w.windowBytes + transmitted before + r.packet.bytes.length := fun hover =>
    ne_true_of_eq_false hkept (hdropped.mpr (Or.inr ⟨hlimit, hover⟩))
  have hload : transmitted (before ++ [r]) = transmitted before + r.packet.bytes.length := by
    rw [transmitted_append, transmitted_singleton, Receipt.load, if_neg (ne_true_of_eq_false hkept)]
  omega

/-- Six bytes and four reliable ones leave no room for one more within a limit of eight. -/
theorem run_accounts_overflow :
    let s := loopback 1
    let t := loopback 2
    let acts : List Act := [.bind s, .start s, .bind t, .connect t s, .approve s ⟨2⟩, .setRateLimit t 8]
    let n := calm.run acts
    let xs : List Sending := [⟨0, ⟨1⟩, [1, 2, 3, 4, 5, 6], .unreliable⟩, ⟨5, ⟨1⟩, [7, 8, 9, 10], .ordered⟩,
      ⟨7, ⟨1⟩, [11], .unreliable⟩]
    (n.sendMany t xs).1.map (·.dropped) = [false, false, true] ∧
      ∃ e', (n.sendMany t xs).2.endpoint? t = some e' ∧ e'.windowBytes = 10 ∧
        e'.traffic.sent + e'.traffic.dropped = 3 := by
  intro s t acts n xs
  let e := (n.endpoint? t).getD (Endpoint.fresh 0)
  have he : n.endpoint? t = some e := by decide +kernel
  have hlinked : ∀ x ∈ xs, n.wire? t x.peer = some ⟨s, ⟨2⟩, .connected⟩ := by decide +kernel
  have htime : n.clock + (xs.map (·.wait)).sum < (n.opening e xs).windowStart + rateWindow := by decide +kernel
  have hcame : (n.sendMany t xs).1.map (·.dropped) = [false, false, true] ∧
      (n.opening e xs).windowBytes + transmitted (n.sendMany t xs).1 = 10 := by decide +kernel
  obtain ⟨hpackets, ⟨-, htraffic⟩, haccounts, -⟩ :=
    run_accounts _ acts t e xs he (fun x hx => ⟨s, ⟨2⟩, hlinked x hx⟩) htime
  obtain ⟨e', he', htally⟩ := haccounts.counted
  refine ⟨hcame.1, e', he', htally.windowBytes.trans hcame.2, htally.packets.trans ?_⟩
  rw [htraffic, ← List.length_map (f := Receipt.packet), hpackets]
  decide +kernel

end Network
end StateSync
