import StateSync.Proofs.Transport.Exchange
import StateSync.Proofs.Transport.Opening

/-! What anybody can do on a network, in any order: bind and close endpoints, and act at them. Whatever is done, the
    network stays sound. -/

namespace StateSync.Network
variable {n : Network}

inductive Act where
  | bind (addr : Address)
  | bindAny
  | start (addr : Address)
  | shutdown (addr : Address) (reason : String)
  /-- Asks a listener for a link, from an endpoint that there is. -/
  | connect (addr remote : Address)
  | approve (addr : Address) (peer : Peer)
  | disconnect (addr : Address) (peer : Peer) (reason : String)
  | send (addr : Address) (peer : Peer) (bytes : Bytes) (d : Delivery)
  | poll (addr : Address)
  | setImpairment (addr : Address) (i : Impairment)
  | setRateLimit (addr : Address) (limit : Nat)
  | close (addr : Address)
  | elapse (time : Nat)
  deriving DecidableEq

def act (n : Network) : Act → Network
  | .bind addr => (n.bind addr).2
  | .bindAny => (n.bindAny.map (·.2)).getD n
  | .start addr => (n.start addr).2
  | .shutdown addr reason => n.shutdown addr reason
  | .connect addr remote => if n.isBound addr then (n.connect addr remote).2 else n
  | .approve addr peer => (n.approve addr peer).2
  | .disconnect addr peer reason => n.sever addr peer reason
  | .send addr peer bytes d => (n.send addr peer bytes d).2
  | .poll addr => (n.poll addr).2
  | .setImpairment addr i => n.setImpairment addr i
  | .setRateLimit addr limit => n.setRateLimit addr limit
  | .close addr => n.close addr
  | .elapse time => n.elapse time

theorem Sound.start (h : n.Sound) (a : Address) : (n.start a).2.Sound := by
  unfold Network.start
  split
  · exact h.update (f := fun e => { e with listening := true }) (fun _ => ⟨rfl, rfl⟩) a
  · exact h

theorem Sound.shutdown (h : n.Sound) (a : Address) (reason : String) : (n.shutdown a reason).Sound :=
  ((h.deafen a).2.severAll a reason).2.1

theorem Sound.polled (h : n.Sound) (a : Address) : (n.poll a).2.Sound := by
  rcases hpoll : n.poll a with ⟨_ | e, n'⟩
  · exact poll_none hpoll ▸ h
  · exact (h.poll hpoll).1

theorem Sound.act (h : n.Sound) (x : Act) : (n.act x).Sound := by
  cases x with
  | bind addr =>
    by_cases hbound : n.isBound addr = true
    · rw [Network.act, Network.bind, if_pos hbound]
      exact h
    · obtain ⟨-, hgrown, -⟩ := h.bind (if_neg hbound)
      rw [Network.act, Network.bind, if_neg hbound]
      exact hgrown.sound
  | bindAny =>
    cases hbind : n.bindAny with
    | none =>
      rw [Network.act, hbind]
      exact h
    | some r =>
      rw [Network.act, hbind]
      exact (h.bindAny hbind).1.sound
  | start addr => exact h.start addr
  | shutdown addr reason => exact h.shutdown addr reason
  | connect addr remote =>
    rw [Network.act]
    split
    · rename_i hbound
      rcases n.connect_cases addr remote with ⟨e, heq⟩ | ⟨hlistens, hne⟩
      · rw [heq]
        exact h
      · obtain ⟨p, n', q, heq, hasked⟩ := h.connect hbound hlistens hne
        rw [heq]
        exact hasked.sound
    · exact h
  | approve addr peer => exact (h.deals_approve addr peer).sound
  | disconnect addr peer reason => exact (h.severs addr peer reason).sound
  | send addr peer bytes d => exact (h.deals_send addr peer bytes d).sound
  | poll addr => exact h.polled addr
  | setImpairment addr i => exact h.update (f := fun e => { e with impairment := i }) (fun _ => ⟨rfl, rfl⟩) addr
  | setRateLimit addr limit => exact h.update (f := fun e => { e with rateLimit := limit }) (fun _ => ⟨rfl, rfl⟩) addr
  | close addr => exact (h.close addr).2.1
  | elapse time => exact h.elapse time

end StateSync.Network
