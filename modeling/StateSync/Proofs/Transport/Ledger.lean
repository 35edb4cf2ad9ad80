import Mathlib.Logic.Function.Basic
import StateSync.Proofs.Transport.Packets

/-! A ledger of all sends on a network, kept beside it: each packet on its way is a letter that bears the ticket of
    its send, and a letter that is polled is put down as taken. The ledger only looks on; without the tickets its
    letters are the packets in the inboxes (`run_looksOn`). -/

namespace StateSync
open Network (Act Dispatches Inherits Still)

/-- A send, by its number, and the answer to it. -/
structure Ticket where
  number : Nat
  addr : Address
  peer : Peer
  bytes : Bytes
  delivery : Delivery
  answer : Except NetError Unit

/-- A packet with the ticket of its send. -/
structure Letter where
  parcel : Parcel
  ticket : Ticket

/-- Puts a letter behind all that are released no later. -/
def Letter.enqueue (x : Letter) : List Letter → List Letter
  | [] => [x]
  | y :: ys => if y.parcel.release ≤ x.parcel.release then y :: enqueue x ys else x :: y :: ys

structure Ledger where
  net : Network
  /-- All sends, in their order. -/
  log : List Ticket
  /-- The letters on their way to an address. -/
  waiting : Address → List Letter
  /-- The letters that have been polled at an address, in their order. -/
  taken : Address → List Letter

namespace Network

/-- The answers to polls at an address, while a network runs. -/
def polled (n : Network) (a : Address) : List Act → List TransportEvent
  | [] => []
  | x :: xs => (if x = .poll a then (n.poll a).1.toList else []) ++ (n.act x).polled a xs

/-- The sends while a network runs, numbered from `first`. -/
def sendsFrom (n : Network) (first : Nat) : List Act → List Ticket
  | [] => []
  | .send a p bytes d :: xs =>
    ⟨first, a, p, bytes, d, (n.send a p bytes d).1⟩ :: (n.send a p bytes d).2.sendsFrom (first + 1) xs
  | x :: xs => (n.act x).sendsFrom first xs

end Network

namespace Ledger

def create (luck : Nat → Luck) : Ledger := ⟨Network.create luck, [], fun _ => [], fun _ => []⟩

/-- All letters that have come to an address, taken or not. -/
def posted (s : Ledger) (a : Address) : List Letter := s.taken a ++ s.waiting a

/-- The packet of a send, if there is one, gets its ticket. -/
def send (s : Ledger) (a : Address) (p : Peer) (bytes : Bytes) (d : Delivery) : Ledger :=
  let r := s.net.send a p bytes d
  let t : Ticket := ⟨s.log.length, a, p, bytes, d, r.1⟩
  { net := r.2
    log := s.log ++ [t]
    waiting := match s.net.packet? a p bytes d with
      | some (b, x) => Function.update s.waiting b (Letter.enqueue ⟨x, t⟩ (s.waiting b))
      | none => s.waiting
    taken := s.taken }

def poll (s : Ledger) (a : Address) : Ledger :=
  match s.net.poll a with
  | (none, n) => { s with net := n }
  | (some e, n) =>
    if e.isPacket then
      { s with
        net := n
        waiting := Function.update s.waiting a (s.waiting a).tail
        taken := Function.update s.taken a (s.taken a ++ (s.waiting a).take 1) }
    else { s with net := n }

def act (s : Ledger) : Act → Ledger
  | .send a p bytes d => s.send a p bytes d
  | .poll a => s.poll a
  | .close a => { s with net := s.net.close a, waiting := Function.update s.waiting a [] }
  | x => { s with net := s.net.act x }

def run (luck : Nat → Luck) (acts : List Act) : Ledger := acts.foldl act (create luck)

end Ledger

namespace Letter
variable {x y : Letter} {xs : List Letter}

theorem map_parcel_enqueue (x : Letter) (xs : List Letter) :
    (x.enqueue xs).map (·.parcel) = x.parcel.enqueue (xs.map (·.parcel)) := by
  induction xs with
  | nil => rfl
  | cons y ys ih =>
    rw [enqueue, List.map_cons, Parcel.enqueue]
    split
    · rw [List.map_cons, ih]
    · rfl

theorem enqueue_perm (x : Letter) (xs : List Letter) : (x.enqueue xs).Perm (x :: xs) := by
  induction xs with
  | nil => exact .refl _
  | cons y ys ih =>
    rw [enqueue]
    split
    · exact (ih.cons y).trans (.swap x y ys)
    · exact .refl _

/-- Among letters that are released in their order and none later than it, a letter comes last. -/
theorem filter_enqueue_last {k : Letter → Bool} (hx : k x = true)
    (hs : xs.Pairwise fun y z => y.parcel.release ≤ z.parcel.release)
    (hle : ∀ y ∈ xs, k y = true → y.parcel.release ≤ x.parcel.release) :
    (x.enqueue xs).filter k = xs.filter k ++ [x] := by
  induction xs with
  | nil => simp [enqueue, hx]
  | cons y ys ih =>
    obtain ⟨hy, hys⟩ := List.pairwise_cons.mp hs
    rw [enqueue]
    split
    · rw [List.filter_cons, List.filter_cons, ih hys fun z hz => hle z (List.mem_cons_of_mem _ hz)]
      split <;> rfl
    · rename_i hlt
      have hnone : (y :: ys).filter k = [] := by
        refine List.filter_eq_nil_iff.mpr fun z hz hk => ?_
        have hle' := hle z hz hk
        rcases List.mem_cons.mp hz with rfl | hmem
        · exact hlt hle'
        · exact hlt (Nat.le_trans (hy z hmem) hle')
      rw [List.filter_cons, if_pos hx, hnone]
      rfl

theorem filter_enqueue_of_false {k : Letter → Bool} (hx : k x = false) (xs : List Letter) :
    (x.enqueue xs).filter k = xs.filter k := by
  induction xs with
  | nil => simp [enqueue, hx]
  | cons y ys ih =>
    rw [enqueue]
    split
    · rw [List.filter_cons, ih, List.filter_cons]
    · rw [List.filter_cons, hx]
      rfl

end Letter

namespace Ledger
variable {s s' : Ledger} {a b c : Address} {p q r : Peer} {x : Act} {y z : Letter} {t : Ticket} {k : Delivery → Bool}
  {m : Nat}

/-! ### What an act comes to -/

/-- Each letter is of a send in the log and brings what was sent, and no peer of a letter or of a send that was granted
    is numbered `m` or higher. -/
structure Bounded (s : Ledger) (m : Nat) : Prop where
  letters : ∀ {a y}, y ∈ s.posted a → y.ticket ∈ s.log ∧ y.ticket.peer.val < m ∧ y.parcel.event.peer.val < m ∧
    y.parcel.event = .data y.parcel.event.peer y.ticket.bytes
  granted : ∀ {t}, t ∈ s.log → t.delivery.isReliable = true → t.answer.isOk = true → t.peer.val < m

/-- What holds between two acts: the letters on their way are the packets of the network, in their order. -/
structure Kept (s : Ledger) : Prop where
  net : s.net.Sound
  packets : ∀ a, (s.waiting a).map (·.parcel) = s.net.packets a
  numbers : s.log.map (·.number) = List.range s.log.length
  bounded : s.Bounded s.net.nextPeer

/-- Nothing is sent, and letters are at most taken or thrown away. -/
structure Passes (s s' : Ledger) : Prop where
  log : s'.log = s.log
  inherits : Inherits s.net s'.net
  packets : ∀ a, (s'.waiting a).map (·.parcel) = s'.net.packets a
  posted : ∀ {a y}, y ∈ s'.posted a → y ∈ s.posted a
  waiting : ∀ {a y}, y ∈ s'.waiting a → y ∈ s.waiting a

/-- All that an act can do to a ledger. -/
inductive Step (s : Ledger) : Act → Ledger → Prop
  | sent {a p bytes d l n} {x : Parcel} (hl : s.net.link? a p = some l) (event : x.event = .data l.remotePeer bytes)
      (held : d.isOrdered = true → l.orderedRelease ≤ x.release) (dispatches : Dispatches s.net n a p l d x) :
      Step s (.send a p bytes d)
        { net := n
          log := s.log ++ [⟨s.log.length, a, p, bytes, d, .ok ()⟩]
          waiting := Function.update s.waiting l.remote
            (Letter.enqueue ⟨x, ⟨s.log.length, a, p, bytes, d, .ok ()⟩⟩ (s.waiting l.remote))
          taken := s.taken }
  | refused {a p bytes d n answer} (still : Still s.net n) (lost : d.isReliable = true → Except.isOk answer = false) :
      Step s (.send a p bytes d) { s with net := n, log := s.log ++ [⟨s.log.length, a, p, bytes, d, answer⟩] }
  | passed {x : Act} {s'} (passes : Passes s s') (kept : ∀ {b}, x ≠ .close b → s'.posted b = s.posted b)
      (closed : ∀ {b}, x = .close b → s'.posted b = s.taken b) : Step s x s'

theorem posted_update (s : Ledger) (n : Network) (log : List Ticket) (b c : Address) (xs : List Letter) :
    ({ net := n, log := log, waiting := Function.update s.waiting b xs, taken := s.taken } : Ledger).posted c =
      s.taken c ++ if c = b then xs else s.waiting c :=
  congrArg (s.taken c ++ ·) (Function.update_apply ..)

theorem act_net (s : Ledger) (x : Act) : (s.act x).net = s.net.act x := by
  cases x with
  | poll a =>
    rw [act, poll, Network.act]
    rcases s.net.poll a with ⟨_ | e, n⟩
    · rfl
    · dsimp only
      split <;> rfl
  | _ => rfl

/-- A poll takes no packet and no letter, or the first packet and its letter. -/
theorem Kept.poll_cases (h : s.Kept) (a : Address) :
    (s.poll a = { s with net := (s.net.poll a).2 } ∧ (s.net.poll a).1.toList.filter TransportEvent.isPacket = [] ∧
      ∀ b, (s.net.poll a).2.packets b = s.net.packets b) ∨
    ∃ e n y ys, s.net.poll a = (some e, n) ∧ e.isPacket = true ∧ s.waiting a = y :: ys ∧ y.parcel.event = e ∧
      s.poll a = { s with net := n, waiting := Function.update s.waiting a ys,
                          taken := Function.update s.taken a (s.taken a ++ [y]) } ∧
      n.packets a = ys.map (·.parcel) ∧ ∀ {b}, b ≠ a → n.packets b = s.net.packets b := by
  unfold poll
  rcases hpoll : s.net.poll a with ⟨_ | e, n⟩
  · obtain rfl := Network.poll_none hpoll
    exact Or.inl ⟨rfl, rfl, fun _ => rfl⟩
  · obtain ⟨-, ⟨x, rfl, hinbox⟩, hother⟩ := Network.poll_takes hpoll
    have hsame : ∀ {b}, b ≠ a → n.packets b = s.net.packets b := fun hb => Network.packets_congr (hother hb)
    have hpackets : s.net.packets a = if x.event.isPacket = true then x :: n.packets a else n.packets a := by
      rw [Network.packets, hinbox, List.filter_cons, Network.packets]
      rfl
    dsimp only
    cases hpacket : x.event.isPacket with
    | true =>
      rw [if_pos hpacket, ← h.packets] at hpackets
      -- The letter of the packet is the first one that waits.
      cases hwaiting : s.waiting a with
      | nil =>
        rw [hwaiting] at hpackets
        cases hpackets
      | cons y ys =>
        rw [hwaiting] at hpackets
        obtain ⟨hy, hys⟩ := List.cons.inj hpackets
        refine Or.inr ⟨x.event, n, y, ys, rfl, hpacket, rfl, congrArg Parcel.event hy, ?_, hys.symm, hsame⟩
        rw [if_pos rfl]
        rfl
    | false =>
      rw [if_neg (by simp [hpacket])] at hpackets
      refine Or.inl ⟨if_neg Bool.false_ne_true, ?_, fun b => ?_⟩
      · rw [Option.toList_some, List.filter_cons, hpacket]
        rfl
      · by_cases hb : b = a
        · rw [hb, hpackets]
        · exact hsame hb

theorem Kept.step_poll (h : s.Kept) (a : Address) : Step s (.poll a) (s.poll a) := by
  have hin : Inherits s.net (s.net.poll a).2 := by
    rcases hpoll : s.net.poll a with ⟨_ | e, n⟩
    · exact Network.poll_none hpoll ▸ (Still.refl s.net).toInherits
    · exact (Network.poll_takes hpoll).1
  rcases h.poll_cases a with ⟨heq, -, hpackets⟩ | ⟨e, n, y, ys, hpoll, -, hwaiting, -, heq, hpackets, hsame⟩
  · rw [heq]
    exact .passed ⟨rfl, hin, fun b => (h.packets b).trans (hpackets b).symm, id, id⟩ (fun _ => rfl) fun hx => by cases hx
  · rw [hpoll] at hin
    have hposted : ∀ b, (s.poll a).posted b = s.posted b := by
      intro b
      rw [heq]
      unfold posted
      dsimp only
      rw [Function.update_apply, Function.update_apply]
      split
      · rename_i hb
        subst hb
        rw [hwaiting]
        exact List.append_assoc _ _ _
      · rfl
    refine .passed ⟨?_, ?_, fun b => ?_, fun {b z} hz => hposted b ▸ hz, fun {b z} hz => ?_⟩ (fun {b} _ => hposted b)
      fun hx => by cases hx
    · rw [heq]
    · rw [heq]
      exact hin
    · rw [heq]
      dsimp only
      rw [Function.update_apply]
      split
      · rename_i hb
        exact hb ▸ hpackets.symm
      · rename_i hb
        exact (h.packets b).trans (hsame hb).symm
    · rw [heq] at hz
      dsimp only at hz
      rw [Function.update_apply] at hz
      split at hz
      · rename_i hb
        subst hb
        rw [hwaiting]
        exact List.mem_cons_of_mem _ hz
      · exact hz

theorem step_send (s : Ledger) (a : Address) (p : Peer) (bytes : Bytes) (d : Delivery) :
    Step s (.send a p bytes d) (s.send a p bytes d) := by
  unfold send
  cases hx : s.net.packet? a p bytes d with
  | none =>
    obtain ⟨hstill, hlost⟩ := Network.send_still hx
    exact .refused hstill hlost
  | some bx =>
    obtain ⟨b, x⟩ := bx
    obtain ⟨n, l, heq, hl, -, rfl, hevent, hheld, hdisp⟩ := Network.send_dispatches hx
    rw [heq]
    exact .sent hl hevent hheld hdisp

theorem Kept.step_close (h : s.Kept) (a : Address) : Step s (.close a) (s.act (.close a)) := by
  have hstill := Still.severAll s.net a "endpoint closed"
  have hpackets : ∀ b, (s.net.close a).packets b = if b = a then [] else s.net.packets b := by
    intro b
    have hunbind : (s.net.close a).packets b = if b = a then [] else (s.net.severAll a "endpoint closed").packets b := by
      show ((s.net.severAll a "endpoint closed").unbind a).packets b = _
      rw [Network.packets, Network.inbox, Network.endpoint?_unbind]
      by_cases hb : a = b
      · rw [if_pos hb, if_pos hb.symm]
        rfl
      · rw [if_neg hb, if_neg (Ne.symm hb)]
        rfl
    rw [hunbind, hstill.packets]
  refine .passed ⟨rfl, hstill.toInherits.trans (Network.inherits_unbind _ a), fun b => ?_, fun {b y} hy => ?_,
    fun {b y} hy => ?_⟩ (fun {b} hb => ?_) fun {b} hb => ?_
  · show (Function.update s.waiting a [] b).map _ = (s.net.close a).packets b
    rw [hpackets, Function.update_apply]
    split
    · rfl
    · exact h.packets b
  · have hpost := posted_update s (s.net.close a) s.log a b []
    rw [show (s.act (.close a)).posted b = _ from hpost] at hy
    rcases List.mem_append.mp hy with hy | hy
    · exact List.mem_append_left _ hy
    · split at hy
      · cases hy
      · exact List.mem_append_right _ hy
  · rw [show (s.act (.close a)).waiting b = _ from Function.update_apply ..] at hy
    split at hy
    · cases hy
    · exact hy
  · refine (posted_update s (s.net.close a) s.log a b []).trans ?_
    rw [if_neg fun heq => hb (by rw [heq])]
    rfl
  · obtain rfl := Act.close.inj hb
    refine (posted_update s (s.net.close a) s.log a a []).trans ?_
    rw [if_pos rfl, List.append_nil]

theorem Kept.step (h : s.Kept) (x : Act) : Step s x (s.act x) := by
  have hstill : x.isStill = true → Step s x { s with net := s.net.act x } := by
    intro hx
    have hstill := Network.still_act s.net hx
    refine .passed ⟨rfl, hstill.toInherits, fun a => ?_, id, id⟩ (fun _ => rfl) fun hclose => ?_
    · exact (h.packets a).trans (hstill.packets a).symm
    · subst hclose
      cases hx
  cases x with
  | send a p bytes d => exact step_send s a p bytes d
  | poll a => exact h.step_poll a
  | close a => exact h.step_close a
  | _ => exact hstill rfl

/-! ### Letters and sends -/

theorem Bounded.mono {m' : Nat} (h : s.Bounded m) (hm : m ≤ m') : s.Bounded m' where
  letters hy := by
    obtain ⟨hlog, hticket, hpeer, hevent⟩ := h.letters hy
    exact ⟨hlog, Nat.lt_of_lt_of_le hticket hm, Nat.lt_of_lt_of_le hpeer hm, hevent⟩
  granted ht hd hok := Nat.lt_of_lt_of_le (h.granted ht hd hok) hm

/-- No act brings letters or sends with peers that were not known before. -/
theorem Step.bounded (h : s.Kept) (hstep : Step s x s') : s'.Bounded s.net.nextPeer := by
  cases hstep with
  | @sent a p bytes d l n x hl event held dispatches =>
    have hw := Network.wire?_of_link? hl
    refine ⟨fun {b y} hy => ?_, fun {t} ht hd hok => ?_⟩
    · rw [posted_update] at hy
      have hcases : y ∈ s.posted b ∨ y = ⟨x, ⟨s.log.length, a, p, bytes, d, .ok ()⟩⟩ := by
        rcases List.mem_append.mp hy with hold | hnew
        · exact Or.inl (List.mem_append_left _ hold)
        · split at hnew
          · rename_i hb
            subst hb
            rcases List.mem_cons.mp ((Letter.enqueue_perm _ _).mem_iff.mp hnew) with rfl | hold
            · exact Or.inr rfl
            · exact Or.inl (List.mem_append_right _ hold)
          · exact Or.inl (List.mem_append_right _ hnew)
      rcases hcases with hy | rfl
      · obtain ⟨hlog, hrest⟩ := h.bounded.letters hy
        exact ⟨List.mem_append_left _ hlog, hrest⟩
      · refine ⟨List.mem_append_right _ (List.mem_singleton_self _), h.net.fresh hw, ?_, ?_⟩
        · rw [event]
          exact h.net.fresh (h.net.paired hw)
        · rw [event]
          rfl
    · rcases List.mem_append.mp ht with ht | ht
      · exact h.bounded.granted ht hd hok
      · rw [List.mem_singleton.mp ht]
        exact h.net.fresh hw
  | @refused a p bytes d n answer still lost =>
    refine ⟨fun hy => ?_, fun {t} ht hd hok => ?_⟩
    · obtain ⟨hlog, hrest⟩ := h.bounded.letters hy
      exact ⟨List.mem_append_left _ hlog, hrest⟩
    · rcases List.mem_append.mp ht with ht | ht
      · exact h.bounded.granted ht hd hok
      · rw [List.mem_singleton.mp ht] at hd hok
        exact (nomatch (lost hd).symm.trans hok)
  | passed passes kept closed =>
    refine ⟨fun hy => ?_, fun ht => ?_⟩
    · rw [passes.log]
      exact h.bounded.letters (passes.posted hy)
    · rw [passes.log] at ht
      exact h.bounded.granted ht

theorem Step.nextPeer_le (hstep : Step s x s') : s.net.nextPeer ≤ s'.net.nextPeer := by
  cases hstep with
  | sent hl event held dispatches => exact Nat.le_of_eq dispatches.nextPeer.symm
  | refused still lost => exact still.nextPeer
  | passed passes kept closed => exact passes.inherits.nextPeer

theorem Kept.act (h : s.Kept) (x : Act) : (s.act x).Kept := by
  have hstep := h.step x
  have hnet : (s.act x).net.Sound := act_net s x ▸ h.net.act x
  generalize s.act x = s' at hstep hnet ⊢
  refine ⟨hnet, ?_, ?_, (hstep.bounded h).mono hstep.nextPeer_le⟩
  · cases hstep with
    | @sent a p bytes d l n x hl event held dispatches =>
      intro b
      have hbound := Network.isBound_of_wire? (h.net.paired (Network.wire?_of_link? hl))
      show (Function.update s.waiting l.remote _ b).map _ = n.packets b
      rw [Function.update_apply, Network.packets, dispatches.inbox, Network.inbox_post]
      by_cases hb : b = l.remote
      · subst hb
        rw [if_pos rfl, if_pos ⟨rfl, hbound⟩, Letter.map_parcel_enqueue, h.packets]
        refine (Parcel.filter_enqueue_packet (x := x) ?_ (h.net.sorted _)).symm
        rw [Parcel.isPacket, event]
        rfl
      · rw [if_neg hb, if_neg fun heq => hb heq.1.symm]
        exact h.packets b
    | refused still lost => exact fun b => (h.packets b).trans (still.packets b).symm
    | passed passes kept closed => exact passes.packets
  · have hgrown : ∀ {log : List Ticket} {t : Ticket}, log = s.log ++ [t] → t.number = s.log.length →
        log.map (·.number) = List.range log.length := by
      rintro log t rfl ht
      rw [List.map_append, h.numbers, List.length_append, List.length_singleton, List.range_succ, List.map_singleton, ht]
    cases hstep with
    | sent hl event held dispatches => exact hgrown rfl rfl
    | refused still lost => exact hgrown rfl rfl
    | passed passes kept closed => rw [passes.log, h.numbers]

/-! ### Runs -/

theorem kept_create (luck : Nat → Luck) : (create luck).Kept where
  net := Network.sound_create luck
  packets _ := rfl
  numbers := rfl
  bounded := ⟨fun hy => (nomatch hy), fun ht => (nomatch ht)⟩

theorem Kept.acts (h : s.Kept) (xs : List Act) : (xs.foldl Ledger.act s).Kept := by
  induction xs generalizing s with
  | nil => exact h
  | cons x xs ih => exact ih (h.act x)

theorem net_acts (s : Ledger) (xs : List Act) : (xs.foldl act s).net = xs.foldl Network.act s.net := by
  induction xs generalizing s with
  | nil => rfl
  | cons x xs ih =>
    rw [List.foldl_cons, ih, act_net]
    rfl

theorem log_acts (s : Ledger) (xs : List Act) :
    (xs.foldl act s).log = s.log ++ s.net.sendsFrom s.log.length xs := by
  induction xs generalizing s with
  | nil => exact (List.append_nil _).symm
  | cons x xs ih =>
    rw [List.foldl_cons, ih, act_net]
    cases x with
    | send a p bytes d =>
      have hlog : (s.act (.send a p bytes d)).log =
          s.log ++ [⟨s.log.length, a, p, bytes, d, (s.net.send a p bytes d).1⟩] := rfl
      rw [hlog, List.length_append, List.append_assoc]
      rfl
    | poll a =>
      have hlog : (s.act (.poll a)).log = s.log := by
        show (s.poll a).log = s.log
        rw [poll]
        rcases s.net.poll a with ⟨_ | e, n⟩
        · rfl
        · dsimp only
          split <;> rfl
      rw [hlog]
      rfl
    | _ => rfl

/-- A poll puts down as taken what it takes. -/
theorem Kept.taken_act (h : s.Kept) (x : Act) (a : Address) : ((s.act x).taken a).map (·.parcel.event) =
    (s.taken a).map (·.parcel.event) ++
      (if x = .poll a then (s.net.poll a).1.toList else []).filter TransportEvent.isPacket := by
  cases x with
  | poll b =>
    show ((s.poll b).taken a).map _ = _
    rcases h.poll_cases b with ⟨heq, hnone, -⟩ | ⟨e, n, y, ys, hpoll, hpacket, -, hevent, heq, -⟩
    · rw [heq]
      split
      · rename_i hb
        rw [← Act.poll.inj hb, hnone]
        exact (List.append_nil _).symm
      · exact (List.append_nil _).symm
    · rw [heq]
      dsimp only
      rw [Function.update_apply]
      by_cases hb : a = b
      · subst hb
        rw [if_pos rfl, if_pos rfl, hpoll, List.map_append, Option.toList_some, List.filter_cons, if_pos hpacket,
          List.map_singleton, hevent]
        rfl
      · rw [if_neg hb, if_neg fun heq => hb (Act.poll.inj heq).symm]
        exact (List.append_nil _).symm
  | _ => exact (List.append_nil _).symm

theorem Kept.taken_acts (h : s.Kept) (xs : List Act) (a : Address) :
    ((xs.foldl Ledger.act s).taken a).map (·.parcel.event) =
      (s.taken a).map (·.parcel.event) ++ (s.net.polled a xs).filter TransportEvent.isPacket := by
  induction xs generalizing s with
  | nil => exact (List.append_nil _).symm
  | cons x xs ih =>
    rw [List.foldl_cons, ih (h.act x), h.taken_act, act_net, Network.polled, List.filter_append, List.append_assoc]

/-- What makes a ledger one of a run of a network. -/
structure LooksOn (s : Ledger) (n : Network) (acts : List Act) : Prop where
  net : s.net = acts.foldl Network.act n
  log : s.log = n.sendsFrom 0 acts
  taken : ∀ a, (s.taken a).map (·.parcel.event) = (n.polled a acts).filter TransportEvent.isPacket
  waiting : ∀ a, (s.waiting a).map (·.parcel) = s.net.packets a

theorem run_looksOn (luck : Nat → Luck) (acts : List Act) : (run luck acts).LooksOn (Network.create luck) acts where
  net := net_acts (create luck) acts
  log := log_acts (create luck) acts
  taken := (kept_create luck).taken_acts acts
  waiting := ((kept_create luck).acts acts).packets

end Ledger
end StateSync
