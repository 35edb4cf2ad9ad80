import StateSync.Proofs.Transport.Acts

/-! The packets on their way to each address, apart from what tells of links, and the release times that links hold
    their ordered packets to. A send that the transport takes adds one packet (`packet?`); most acts change nothing
    here (`Still`). -/

namespace StateSync

/-- Whether an event brings a packet. -/
def TransportEvent.isPacket (e : TransportEvent) : Bool := !e.note.isStatus

/-- When an ordered packet is released that would be due by itself at a time, and when any other one. -/
def Link.releaseOf (l : Link) (d : Delivery) (due : Nat) : Nat := if d.isOrdered then max due l.orderedRelease else due

theorem Link.orderedRelease_le {l : Link} {d : Delivery} (hd : d.isOrdered = true) (due : Nat) :
    l.orderedRelease ≤ l.releaseOf d due := by
  rw [releaseOf, if_pos hd]
  exact Nat.le_max_right _ _

/-- The link after a packet with a release. -/
def Link.heldTo (l : Link) (d : Delivery) (release : Nat) : Link :=
  if d.isOrdered then { l with orderedRelease := release } else l

/-- What a link is known by to the packets on it: its other end, and the release of the ordered ones. -/
def Link.line (l : Link) : Address × Peer × Nat := (l.remote, l.remotePeer, l.orderedRelease)

namespace Parcel
variable {x : Parcel} {xs : List Parcel}

def isPacket (x : Parcel) : Bool := x.event.isPacket

theorem enqueue_of_lt (h : ∀ y ∈ xs, x.release < y.release) : x.enqueue xs = x :: xs := by
  cases xs with
  | nil => rfl
  | cons q qs => rw [enqueue, if_neg (Nat.not_le.mpr (h q List.mem_cons_self))]

theorem filter_enqueue_status (hx : x.isPacket = false) (xs : List Parcel) :
    (x.enqueue xs).filter isPacket = xs.filter isPacket := by
  induction xs with
  | nil => simp [enqueue, hx]
  | cons q qs ih =>
    rw [enqueue]
    split
    · rw [List.filter_cons, ih, List.filter_cons]
    · rw [List.filter_cons, hx]
      rfl

theorem filter_enqueue_packet (hx : x.isPacket = true) (hs : Sorted xs) :
    (x.enqueue xs).filter isPacket = x.enqueue (xs.filter isPacket) := by
  induction xs with
  | nil => simp [enqueue, hx]
  | cons q qs ih =>
    obtain ⟨hq, hqs⟩ := List.pairwise_cons.mp hs
    rw [enqueue]
    split
    · rename_i hle
      rw [List.filter_cons, List.filter_cons, ih hqs]
      split
      · rw [enqueue, if_pos hle]
      · rfl
    · rename_i hlt
      rw [List.filter_cons, if_pos hx, enqueue_of_lt]
      intro y hy
      rcases List.mem_cons.mp (List.mem_filter.mp hy).1 with rfl | hmem
      · omega
      · have := hq y hmem
        omega

end Parcel

namespace Network
variable {n n' n'' : Network} {a b : Address} {p q : Peer} {l l' : Link} {x : Parcel} {bytes : Bytes} {d : Delivery}

def packets (n : Network) (a : Address) : List Parcel := (n.inbox a).filter Parcel.isPacket

theorem packets_congr (h : n'.inbox a = n.inbox a) : n'.packets a = n.packets a := by
  rw [packets, h, packets]

/-! ### Nothing is sent or taken -/

/-- Every link is a new one, or one that is held to the same release. -/
structure Inherits (n n' : Network) : Prop where
  nextPeer : n.nextPeer ≤ n'.nextPeer
  link? : ∀ {a p l'}, n'.link? a p = some l' → p.val < n.nextPeer → ∃ l, n.link? a p = some l ∧ l'.line = l.line

/-- Besides, the packets on their way stay. -/
structure Still (n n' : Network) : Prop extends Inherits n n' where
  packets : ∀ a, n'.packets a = n.packets a

theorem Inherits.of_link? (hnext : n'.nextPeer = n.nextPeer) (hlink : ∀ a p, n'.link? a p = n.link? a p) :
    Inherits n n' where
  nextPeer := Nat.le_of_eq hnext.symm
  link? hl _ := ⟨_, (hlink _ _).symm.trans hl, rfl⟩

theorem Inherits.trans (h : Inherits n n') (h' : Inherits n' n'') : Inherits n n'' where
  nextPeer := Nat.le_trans h.nextPeer h'.nextPeer
  link? hl hp := by
    obtain ⟨l', hl', hline'⟩ := h'.link? hl (Nat.lt_of_lt_of_le hp h.nextPeer)
    obtain ⟨l, hl, hline⟩ := h.link? hl' hp
    exact ⟨l, hl, hline'.trans hline⟩

/-- Old links lead where they led. -/
theorem Inherits.wire? (h : Inherits n n') {w : Wire} (hw : n'.wire? a p = some w) (hp : p.val < n.nextPeer) :
    ∃ st, n.wire? a p = some ⟨w.remote, w.remotePeer, st⟩ := by
  obtain ⟨l', hl', rfl⟩ := link?_of_wire? hw
  obtain ⟨l, hl, hline⟩ := h.link? hl' hp
  obtain ⟨hremote, hpeer⟩ := Prod.mk.inj hline
  obtain ⟨hpeer, -⟩ := Prod.mk.inj hpeer
  exact ⟨l.state, by rw [wire?_of_link? hl, Link.wire, Link.wire, hremote, hpeer]⟩

theorem inherits_unbind (n : Network) (a : Address) : Inherits n (n.unbind a) where
  nextPeer := Nat.le_refl _
  link? {b q l'} hl _ := by
    rw [link?, endpoint?_unbind] at hl
    split at hl
    · cases hl
    · exact ⟨l', hl, rfl⟩

namespace Still

theorem refl (n : Network) : Still n n := ⟨.of_link? rfl fun _ _ => rfl, fun _ => rfl⟩

theorem trans (h : Still n n') (h' : Still n' n'') : Still n n'' :=
  ⟨h.toInherits.trans h'.toInherits, fun a => (h'.packets a).trans (h.packets a)⟩

theorem update {f : Endpoint → Endpoint} (hf : ∀ e, (f e).inbox = e.inbox ∧ (f e).links = e.links) (n : Network)
    (a : Address) : Still n (n.update a f) :=
  ⟨.of_link? rfl (link?_update (fun e => (hf e).2) n a),
    fun b => packets_congr (inbox_update (fun e => (hf e).1) n a b)⟩

/-- What tells of a link is no packet. -/
theorem post (n : Network) (a : Address) (release : Nat) {ev : TransportEvent} (hev : ev.isPacket = false) :
    Still n (n.post a release ev) := by
  let f : Endpoint → Endpoint := fun e => { e with inbox := Parcel.enqueue ⟨release, ev⟩ e.inbox }
  refine ⟨.of_link? rfl (link?_update (f := f) (fun _ => rfl) n a), fun b => ?_⟩
  rw [Network.packets, inbox_post]
  split
  · exact Parcel.filter_enqueue_status (x := ⟨release, ev⟩) hev _
  · rfl

theorem setLink (h : p.val < n.nextPeer → ∃ l, n.link? a p = some l ∧ l'.line = l.line) :
    Still n (n.setLink a p l') := by
  refine ⟨⟨Nat.le_refl _, fun {b q l''} hl hq => ?_⟩, fun b => packets_congr (inbox_setLink ..)⟩
  rw [link?_setLink] at hl
  split at hl
  · rename_i hend
    obtain ⟨rfl, rfl, -⟩ := hend
    obtain rfl := Option.some.inj hl
    exact h hq
  · exact ⟨l'', hl, rfl⟩

theorem dropLink (n : Network) (a : Address) (p : Peer) : Still n (n.dropLink a p) := by
  refine ⟨⟨Nat.le_refl _, fun {b q l'} hl _ => ?_⟩, fun b => packets_congr (inbox_dropLink ..)⟩
  rw [link?_dropLink] at hl
  split at hl
  · cases hl
  · exact ⟨l', hl, rfl⟩

theorem sever (n : Network) (a : Address) (p : Peer) (reason : String) : Still n (n.sever a p reason) := by
  have hend : ∀ (n : Network) (now : Nat) (a : Address) (p : Peer),
      Still n ((n.dropLink a p).post a now (.disconnected p reason)) := fun n now a p =>
    (Still.dropLink n a p).trans (.post _ a now rfl)
  unfold Network.sever
  split
  · exact .refl n
  · dsimp only
    split
    · exact (hend n _ a p).trans (hend _ _ _ _)
    · exact hend n _ a p

theorem severAll (n : Network) (a : Address) (reason : String) : Still n (n.severAll a reason) := by
  have hfold : ∀ (ps : List Peer) (n : Network), Still n (ps.foldl (fun n p => n.sever a p reason) n) := by
    intro ps
    induction ps with
    | nil => exact fun n => .refl n
    | cons p ps ih => exact fun n => (Still.sever n a p reason).trans (ih _)
  unfold Network.severAll
  split
  · exact .refl n
  · exact hfold _ n

theorem approve (n : Network) (a : Address) (p : Peer) : Still n (n.approve a p).2 := by
  unfold Network.approve
  split
  · exact .refl n
  · rename_i l hl
    split
    · exact .refl n
    · have hnear : Still n (n.setLink a p { l with state := .connected }) := .setLink fun _ => ⟨l, hl, rfl⟩
      have hpost : ∀ {n₁ : Network}, Still n n₁ → Still n
          ((n₁.post a n₁.clock (.connected p "")).post l.remote n₁.clock (.connected l.remotePeer "")) := fun h =>
        h.trans ((Still.post _ a _ rfl).trans (.post _ l.remote _ rfl))
      dsimp only
      split
      · rename_i l' hl'
        exact hpost (hnear.trans (.setLink fun _ => ⟨l', hl', rfl⟩))
      · exact hpost hnear

theorem connect (n : Network) (a remote : Address) : Still n (n.connect a remote).2 := by
  unfold Network.connect
  split
  · exact .refl n
  · let n₁ : Network := { n with nextPeer := n.nextPeer + 2 }
    have hgrown : Still n n₁ := ⟨⟨Nat.le_add_right _ _, fun hl _ => ⟨_, hl, rfl⟩⟩, fun _ => rfl⟩
    have hset : ∀ {n₂ : Network} {a : Address} {p : Peer} {l : Link}, Still n n₂ → n.nextPeer ≤ p.val →
        Still n (n₂.setLink a p l) := by
      intro n₂ a p l h hp
      refine ⟨⟨h.nextPeer, fun {b q l'} hl hq => ?_⟩, fun b => (packets_congr (inbox_setLink ..)).trans (h.packets b)⟩
      rw [link?_setLink] at hl
      split at hl
      · rename_i hend
        obtain ⟨-, rfl, -⟩ := hend
        omega
      · exact h.link? hl hq
    exact (hset (hset hgrown (Nat.le_refl _)) (Nat.le_succ _)).trans (.post _ remote _ rfl)

/-- A new endpoint has neither packets nor links. -/
theorem insert (hfree : n.isBound a = false) (port : UInt16) :
    Still n { n with nextPort := port, endpoints := n.endpoints.insert a (Endpoint.fresh n.clock) } := by
  have hget : ∀ b, ({ n with nextPort := port, endpoints := n.endpoints.insert a (Endpoint.fresh n.clock) } :
      Network).endpoint? b = if a = b then some (Endpoint.fresh n.clock) else n.endpoint? b := fun b =>
    Assoc.get?_insert ..
  refine ⟨⟨Nat.le_refl _, fun {b q l'} hl _ => ?_⟩, fun b => ?_⟩
  · rw [Network.link?, hget] at hl
    split at hl
    · cases hl
    · exact ⟨l', hl, rfl⟩
  · refine packets_congr ?_
    rw [Network.inbox, hget, Network.inbox]
    split
    · rename_i hab
      subst hab
      rw [isBound_eq, Option.isSome_eq_false_iff, Option.isNone_iff_eq_none] at hfree
      rw [hfree]
      rfl
    · rfl

end Still

/-- What somebody can do who neither sends nor polls nor closes an endpoint. -/
def Act.isStill : Act → Bool
  | .send .. | .poll _ | .close _ => false
  | _ => true

theorem still_act (n : Network) {x : Act} (hx : x.isStill = true) : Still n (n.act x) := by
  cases x with
  | bind addr =>
    rw [Network.act, Network.bind]
    split
    · exact .refl n
    · rename_i hfree
      exact .insert (Bool.eq_false_iff.mpr hfree) n.nextPort
  | bindAny =>
    cases hbind : n.bindAny with
    | none =>
      rw [Network.act, hbind]
      exact .refl n
    | some r =>
      rw [Network.act, hbind]
      obtain ⟨port, hport, rfl⟩ := Option.map_eq_some_iff.mp hbind
      exact .insert (freePort?_free hport) _
  | start addr =>
    rw [Network.act, Network.start]
    split
    · exact .update (f := fun e => { e with listening := true }) (fun _ => ⟨rfl, rfl⟩) n addr
    · exact .refl n
  | shutdown addr reason =>
    exact (Still.update (f := fun e => { e with listening := false }) (fun _ => ⟨rfl, rfl⟩) n addr).trans
      (.severAll _ addr reason)
  | connect addr remote =>
    rw [Network.act]
    split
    · exact .connect n addr remote
    · exact .refl n
  | approve addr peer => exact .approve n addr peer
  | disconnect addr peer reason => exact .sever n addr peer reason
  | setImpairment addr i => exact .update (f := fun e => { e with impairment := i }) (fun _ => ⟨rfl, rfl⟩) n addr
  | setRateLimit addr limit => exact .update (f := fun e => { e with rateLimit := limit }) (fun _ => ⟨rfl, rfl⟩) n addr
  | elapse time => exact ⟨.of_link? rfl fun _ _ => rfl, fun _ => rfl⟩
  | send addr peer bytes d => cases hx
  | poll addr => cases hx
  | close addr => cases hx

/-! ### Polling -/

theorem link?_poll (n : Network) (a b : Address) (q : Peer) : (n.poll a).2.link? b q = n.link? b q := by
  have htake : ∀ (xs : List Parcel), (n.update a fun e => { e with inbox := xs }).link? b q = n.link? b q := fun xs =>
    link?_update (f := fun e => { e with inbox := xs }) (fun _ => rfl) n a b q
  unfold poll
  split
  · split
    · dsimp only
      split
      · rename_i bytes _
        exact (link?_update (f := countReceived bytes.length) (fun _ => rfl) _ a b q).trans (htake _)
      · exact htake _
    · rfl
  · rfl

/-- A poll takes the first event of an inbox. -/
theorem poll_takes {ev : TransportEvent} (hpoll : n.poll a = (some ev, n')) :
    Inherits n n' ∧ (∃ x, x.event = ev ∧ n.inbox a = x :: n'.inbox a) ∧ ∀ {b}, b ≠ a → n'.inbox b = n.inbox b := by
  obtain ⟨x, xs, hin, hev, -, hq⟩ := poll_eq hpoll
  have hbound : n.isBound a = true := by
    cases he : n.endpoint? a with
    | none =>
      rw [inbox, he] at hin
      cases hin
    | some e => rw [isBound_eq, he, Option.isSome_some]
  have hlink : ∀ b q, n'.link? b q = n.link? b q := fun b q => by rw [← link?_poll n a b q, hpoll]
  refine ⟨.of_link? hq.nextPeer hlink, ⟨x, hev, ?_⟩, fun {b} hb => ?_⟩
  · rw [hin, hq.inbox, inbox_replace n a xs hbound, if_pos rfl]
  · rw [hq.inbox, inbox_replace n a xs hbound, if_neg (Ne.symm hb)]

/-! ### Sending -/

/-- The packet that a send puts on its way, and to which address. Without a connected link there is none, and an
    unreliable one may be lost. -/
def packet? (n : Network) (a : Address) (p : Peer) (bytes : Bytes) (d : Delivery) : Option (Address × Parcel) :=
  (n.endpoint? a).bind fun e => (n.link? a p).bind fun l =>
    let luck := n.luck n.sends
    if l.state = .connected ∧ (d.isReliable = true ∨ e.impairment.drops luck.loss = false ∧
        isOverBudget (restartWindow n.clock e) bytes.length = false) then
      some (l.remote, ⟨l.releaseOf d (n.clock + e.impairment.delay luck * millisecond), .data l.remotePeer bytes⟩)
    else none

/-- What a send comes to that puts a packet on its way. -/
structure Dispatches (n n' : Network) (a : Address) (p : Peer) (l : Link) (d : Delivery) (x : Parcel) : Prop where
  nextPeer : n'.nextPeer = n.nextPeer
  inbox : ∀ b, n'.inbox b = (n.post l.remote x.release x.event).inbox b
  link? : ∀ b q, n'.link? b q = if a = b ∧ p = q then some (l.heldTo d x.release) else n.link? b q

theorem Dispatches.wire? (hl : n.link? a p = some l) (h : Dispatches n n' a p l d x) (b : Address) (q : Peer) :
    n'.wire? b q = n.wire? b q := by
  rw [Network.wire?, h.link?]
  split
  · rename_i hend
    obtain ⟨rfl, rfl⟩ := hend
    rw [wire?_of_link? hl, Link.heldTo]
    split <;> rfl
  · rfl

theorem transmit_dispatches (hl : n.link? a p = some l) (hst : l.state = .connected) (bytes : Bytes) (d : Delivery)
    (delay : Nat) : ∃ n', n.transmit a p bytes d delay = (.ok (), n') ∧
      Dispatches n n' a p l d ⟨l.releaseOf d (n.clock + delay), .data l.remotePeer bytes⟩ := by
  let release := l.releaseOf d (n.clock + delay)
  let n₁ := if d.isOrdered then n.setLink a p { l with orderedRelease := release } else n
  have htransmit : n.transmit a p bytes d delay =
      (.ok (), (n₁.post l.remote release (.data l.remotePeer bytes)).update a (countSent bytes.length)) :=
    transmit_eq hl hst bytes d delay
  refine ⟨_, htransmit, ?_, fun b => ?_, fun b q => ?_⟩
  · show n₁.nextPeer = n.nextPeer
    unfold n₁
    split <;> rfl
  · rw [inbox_update (f := countSent bytes.length) fun _ => rfl, inbox_post, inbox_post]
    unfold n₁
    split
    · rw [isBound_setLink, inbox_setLink]
    · rfl
  · have hposted : ∀ ev, (n₁.post l.remote release ev).link? b q = n₁.link? b q := fun ev =>
      link?_update (f := fun e => { e with inbox := Parcel.enqueue ⟨release, ev⟩ e.inbox }) (fun _ => rfl) _ _ _ _
    rw [link?_update (f := countSent bytes.length) fun _ => rfl, hposted, Link.heldTo]
    unfold n₁
    split
    · rw [link?_setLink]
      simp only [isBound_of_wire? (wire?_of_link? hl), and_true]
      rfl
    · split
      · rename_i hend
        obtain ⟨rfl, rfl⟩ := hend
        exact hl
      · rfl

theorem Dispatches.of_same {n₁ : Network} (h : Dispatches n₁ n' a p l d x) (hnext : n₁.nextPeer = n.nextPeer)
    (hbound : ∀ b, n₁.isBound b = n.isBound b) (hinbox : ∀ b, n₁.inbox b = n.inbox b)
    (hlink : ∀ b q, n₁.link? b q = n.link? b q) : Dispatches n n' a p l d x where
  nextPeer := h.nextPeer.trans hnext
  inbox b := by rw [h.inbox, inbox_post, inbox_post, hbound, hinbox]
  link? b q := by rw [h.link?, hlink]

theorem send_eq {e : Endpoint} (he : n.endpoint? a = some e) (p : Peer) (bytes : Bytes) (d : Delivery) :
    let n₁ : Network := { n with sends := n.sends + 1 }
    let n₂ := n₁.update a (restartWindow n.clock)
    let delay := e.impairment.delay (n.luck n.sends) * millisecond
    n.send a p bytes d =
      if d.isReliable = true then (n₁.noteDelay e.impairment (n.luck n.sends)).transmit a p bytes d delay
      else if e.impairment.drops (n.luck n.sends).loss = true then (.ok (), n₁.update a countDropped)
      else if isOverBudget (restartWindow n.clock e) bytes.length = true then (.ok (), n₂.update a countDropped)
      else (n₂.noteDelay e.impairment (n.luck n.sends)).transmit a p bytes d delay := by
  intro n₁ n₂ delay
  unfold send
  rw [he]
  rfl

/-- A send whose packet goes on its way is granted. -/
theorem send_dispatches (hx : n.packet? a p bytes d = some (b, x)) :
    ∃ n' l, n.send a p bytes d = (.ok (), n') ∧ n.link? a p = some l ∧ l.state = .connected ∧ l.remote = b ∧
      x.event = .data l.remotePeer bytes ∧ (d.isOrdered = true → l.orderedRelease ≤ x.release) ∧
      Dispatches n n' a p l d x := by
  obtain ⟨e, he, hx⟩ := Option.bind_eq_some_iff.mp hx
  obtain ⟨l, hl, hx⟩ := Option.bind_eq_some_iff.mp hx
  dsimp only at hx
  split at hx
  · rename_i hcond
    obtain ⟨hst, hlucky⟩ := hcond
    obtain ⟨rfl, rfl⟩ := Prod.mk.inj (Option.some.inj hx)
    have hsend := send_eq he p bytes d
    have hwindow := fun e => (restartWindow_keeps n.clock e).2
    generalize restartWindow n.clock = window at hsend hwindow hlucky
    generalize e.impairment.delay (n.luck n.sends) * millisecond = delay at hsend ⊢
    obtain ⟨n', heq, hdisp⟩ : ∃ n', n.send a p bytes d = (.ok (), n') ∧
        Dispatches n n' a p l d ⟨l.releaseOf d (n.clock + delay), .data l.remotePeer bytes⟩ := by
      rw [hsend]
      split
      · obtain ⟨n', heq, hdisp⟩ := transmit_dispatches
          (n := ({ n with sends := n.sends + 1 } : Network).noteDelay e.impairment (n.luck n.sends)) hl hst bytes d delay
        exact ⟨n', heq, hdisp.of_same rfl (fun _ => rfl) (fun _ => rfl) fun _ _ => rfl⟩
      · rename_i hrel
        obtain ⟨hdrop, hbudget⟩ := hlucky.resolve_left hrel
        have hlink := link?_update (fun e => (hwindow e).2) { n with sends := n.sends + 1 } a
        have hinbox := inbox_update (fun e => (hwindow e).1) { n with sends := n.sends + 1 } a
        have hbound := isBound_update { n with sends := n.sends + 1 } a window
        obtain ⟨n', heq, hdisp⟩ := transmit_dispatches
          (n := (({ n with sends := n.sends + 1 } : Network).update a window).noteDelay e.impairment (n.luck n.sends))
          ((hlink a p).trans hl) hst bytes d delay
        rw [if_neg (by simp [hdrop]), if_neg (by simp [hbudget])]
        exact ⟨n', heq, hdisp.of_same rfl hbound hinbox hlink⟩
    exact ⟨n', l, heq, hl, hst, rfl, rfl, fun hd => Link.orderedRelease_le hd _, hdisp⟩
  · cases hx

theorem transmit_still (h : ∀ l, n.link? a p = some l → l.state ≠ .connected) (bytes : Bytes) (d : Delivery)
    (delay : Nat) : (n.transmit a p bytes d delay).2 = n ∧ (n.transmit a p bytes d delay).1.isOk = false := by
  unfold transmit
  cases hl : n.link? a p with
  | none => exact ⟨rfl, rfl⟩
  | some l =>
    dsimp only
    rw [if_pos (h l hl)]
    exact ⟨rfl, rfl⟩

/-- If none goes on its way nothing happens, and only of an unreliable one the sender is not told. -/
theorem send_still (hx : n.packet? a p bytes d = none) :
    Still n (n.send a p bytes d).2 ∧ (d.isReliable = true → (n.send a p bytes d).1.isOk = false) := by
  cases he : n.endpoint? a with
  | none =>
    rw [send, he]
    exact ⟨.refl n, fun _ => rfl⟩
  | some e =>
    have hsend := send_eq he p bytes d
    have hwindow := fun e => (restartWindow_keeps n.clock e).2
    rw [packet?, he, Option.bind_some] at hx
    dsimp only at hx
    generalize restartWindow n.clock = window at hsend hwindow hx
    generalize e.impairment.delay (n.luck n.sends) * millisecond = delay at hsend hx
    -- A packet that is not lost finds no connected link.
    have hst : (d.isReliable = true ∨ e.impairment.drops (n.luck n.sends).loss = false ∧
        isOverBudget (window e) bytes.length = false) → ∀ l, n.link? a p = some l → l.state ≠ .connected := by
      intro hlucky l hl hst
      rw [hl, Option.bind_some, if_pos ⟨hst, hlucky⟩] at hx
      cases hx
    have hsends : Still n { n with sends := n.sends + 1 } := ⟨.of_link? rfl fun _ _ => rfl, fun _ => rfl⟩
    have hnoted : ∀ n₁ : Network, Still n₁ (n₁.noteDelay e.impairment (n.luck n.sends)) := fun _ =>
      ⟨.of_link? rfl fun _ _ => rfl, fun _ => rfl⟩
    have hrestart : Still n (({ n with sends := n.sends + 1 } : Network).update a window) :=
      hsends.trans (.update hwindow _ a)
    rw [hsend]
    split
    · rename_i hrel
      obtain ⟨heq, hok⟩ := transmit_still
        (n := ({ n with sends := n.sends + 1 } : Network).noteDelay e.impairment (n.luck n.sends))
        (hst (Or.inl hrel)) bytes d delay
      refine ⟨?_, fun _ => hok⟩
      rw [heq]
      exact hsends.trans (hnoted _)
    · rename_i hrel
      refine ⟨?_, fun hd => absurd hd hrel⟩
      split
      · exact hsends.trans (.update (f := countDropped) (fun _ => ⟨rfl, rfl⟩) _ a)
      · rename_i hdrop
        split
        · exact hrestart.trans (.update (f := countDropped) (fun _ => ⟨rfl, rfl⟩) _ a)
        · rename_i hbudget
          have hnone := hst (Or.inr ⟨eq_false_of_ne_true hdrop, eq_false_of_ne_true hbudget⟩)
          have hlink := link?_update (fun e => (hwindow e).2) { n with sends := n.sends + 1 } a
          rw [(transmit_still
            (n := (({ n with sends := n.sends + 1 } : Network).update a window).noteDelay e.impairment (n.luck n.sends))
            (fun l hl => hnone l ((hlink a p).symm.trans hl)) bytes d delay).1]
          exact hrestart.trans (hnoted _)

end Network
end StateSync
