import StateSync.Proofs.Transport.Acted

/-! The two ends of each link over a whole run. They lead to one another in the same state; a peer's number is that of
    one end of one link, and of no other before or after it (`Sound.unmixed`); and a link that led to an endpoint when it
    was shut down or closed is gone for good (`Sound.gone`). -/

namespace StateSync.Network
variable {n n' n'' : Network} {A : Act → Prop} {a b c : Address} {p q : Peer} {w w' : Wire} {x : Act}

/-! ### What acts change beside the endpoints -/

/-- To take down a link changes the endpoints only. -/
theorem sever_eq_with (n : Network) (a : Address) (p : Peer) (reason : String) :
    ∃ es, n.sever a p reason = { n with endpoints := es } := by
  unfold sever
  split
  · exact ⟨n.endpoints, rfl⟩
  · dsimp only
    split <;> exact ⟨_, rfl⟩

theorem foldl_sever_eq_with (n : Network) (a : Address) (ps : List Peer) (reason : String) :
    ∃ es, ps.foldl (fun n p => n.sever a p reason) n = { n with endpoints := es } := by
  induction ps generalizing n with
  | nil => exact ⟨n.endpoints, rfl⟩
  | cons p ps ih =>
    obtain ⟨es, heq⟩ := sever_eq_with n a p reason
    obtain ⟨es', heq'⟩ := ih (n.sever a p reason)
    rw [heq] at heq'
    exact ⟨es', by rw [List.foldl_cons, heq, heq']⟩

theorem severAll_eq_with (n : Network) (a : Address) (reason : String) :
    ∃ es, n.severAll a reason = { n with endpoints := es } := by
  unfold severAll
  split
  · exact ⟨n.endpoints, rfl⟩
  · exact foldl_sever_eq_with ..

theorem close_eq_with (n : Network) (a : Address) : ∃ es, n.close a = { n with endpoints := es } := by
  obtain ⟨es, heq⟩ := severAll_eq_with n a "endpoint closed"
  exact ⟨es.erase a, by rw [close, heq]⟩

theorem approve_eq_with (n : Network) (a : Address) (p : Peer) :
    ∃ es, (n.approve a p).2 = { n with endpoints := es } := by
  unfold approve
  split
  · exact ⟨n.endpoints, rfl⟩
  · split
    · exact ⟨n.endpoints, rfl⟩
    · dsimp only
      split <;> exact ⟨_, rfl⟩

theorem transmit_eq_with (n : Network) (a : Address) (p : Peer) (bytes : Bytes) (d : Delivery) (delay : Nat) :
    ∃ es, (n.transmit a p bytes d delay).2 = { n with endpoints := es } := by
  unfold transmit
  split
  · exact ⟨n.endpoints, rfl⟩
  · split
    · exact ⟨n.endpoints, rfl⟩
    · dsimp only
      split <;> exact ⟨_, rfl⟩

/-- A packet is also counted, whatever comes of it, and its delay may run over. -/
theorem send_eq_with (n : Network) (a : Address) (p : Peer) (bytes : Bytes) (d : Delivery) :
    ∃ es sends overran, (n.send a p bytes d).2 = { n with endpoints := es, sends := sends, overran := overran } := by
  have htransmit : ∀ (n₁ : Network) (i : Impairment) (delay : Nat),
      (∃ es, n₁ = { n with endpoints := es, sends := n.sends + 1 }) →
      ∃ es sends overran, ((n₁.noteDelay i (n.luck n.sends)).transmit a p bytes d delay).2 =
        { n with endpoints := es, sends := sends, overran := overran } := by
    rintro n₁ i delay ⟨es, rfl⟩
    obtain ⟨es', heq⟩ := transmit_eq_with _ a p bytes d delay
    exact ⟨es', n.sends + 1, _, heq⟩
  unfold send
  split
  · exact ⟨n.endpoints, n.sends, n.overran, rfl⟩
  · dsimp only
    split
    · exact htransmit _ _ _ ⟨n.endpoints, rfl⟩
    · split
      · exact ⟨_, _, _, rfl⟩
      · split
        · exact ⟨_, _, _, rfl⟩
        · exact htransmit _ _ _ ⟨_, rfl⟩

theorem poll_eq_with (n : Network) (a : Address) : ∃ es, (n.poll a).2 = { n with endpoints := es } := by
  unfold poll
  split
  · split
    · dsimp only
      split <;> exact ⟨_, rfl⟩
    · exact ⟨n.endpoints, rfl⟩
  · exact ⟨n.endpoints, rfl⟩

/-- Numbers are given out for a new link only, and the port to be tried next is changed only where any port will do. -/
theorem act_eq_with (n : Network) (hconnect : ∀ a b, x ≠ .connect a b) (hany : x ≠ .bindAny) :
    ∃ clock es sends overran,
      n.act x = { n with clock := clock, endpoints := es, sends := sends, overran := overran } := by
  have hkept : ∀ {n' : Network}, (∃ es, n' = { n with endpoints := es }) →
      ∃ clock es sends overran,
        n' = { n with clock := clock, endpoints := es, sends := sends, overran := overran } := by
    rintro n' ⟨es, rfl⟩
    exact ⟨n.clock, es, n.sends, n.overran, rfl⟩
  cases x with
  | bind addr =>
    refine hkept ?_
    rw [act, bind]
    split
    · exact ⟨n.endpoints, rfl⟩
    · exact ⟨_, rfl⟩
  | bindAny => exact absurd rfl hany
  | start addr =>
    refine hkept ?_
    rw [act, start]
    split
    · exact ⟨_, rfl⟩
    · exact ⟨n.endpoints, rfl⟩
  | shutdown addr reason => exact hkept (severAll_eq_with (n.update addr fun e => { e with listening := false }) ..)
  | connect addr remote => exact absurd rfl (hconnect addr remote)
  | approve addr peer => exact hkept (approve_eq_with n addr peer)
  | disconnect addr peer reason => exact hkept (sever_eq_with n addr peer reason)
  | send addr peer bytes d =>
    obtain ⟨es, sends, overran, heq⟩ := send_eq_with n addr peer bytes d
    exact ⟨n.clock, es, sends, overran, heq⟩
  | poll addr => exact hkept (poll_eq_with n addr)
  | setImpairment addr i => exact hkept ⟨_, rfl⟩
  | setRateLimit addr limit => exact hkept ⟨_, rfl⟩
  | close addr => exact hkept (close_eq_with n addr)
  | elapse time => exact ⟨n.clock + time, n.endpoints, n.sends, n.overran, rfl⟩

theorem nextPeer_act (n : Network) (hx : ∀ a b, x ≠ .connect a b) : (n.act x).nextPeer = n.nextPeer := by
  by_cases hany : x = .bindAny
  · rw [hany, act, bindAny]
    cases n.freePort? n.nextPort portCount <;> rfl
  · obtain ⟨clock, es, sends, overran, heq⟩ := act_eq_with n hx hany
    rw [heq]

/-- An end with a number that was not given out yet is one of the two of a link that was asked for. -/
theorem Sound.newcomer (h : n.Sound) (hw : (n.act x).wire? a p = some w) (hp : n.nextPeer ≤ p.val) :
    ∃ b, (x = .connect a b ∧ p = ⟨n.nextPeer⟩) ∨ (x = .connect b a ∧ p = ⟨n.nextPeer + 1⟩) := by
  have hold : ¬ (n.act x).nextPeer = n.nextPeer := fun heq =>
    absurd ((h.act x).fresh hw) (Nat.not_lt.mpr (heq ▸ hp))
  by_cases hx : ∃ c d, x = .connect c d
  · obtain ⟨c, d, rfl⟩ := hx
    rw [Network.act] at hw hold
    split at hw
    · rename_i hc
      rw [if_pos hc] at hold
      rcases n.connect_cases c d with ⟨e, heq⟩ | ⟨hlistens, hne⟩
      · exact absurd (by rw [heq]) hold
      · rw [connect_eq_lay hlistens hne, wire?_post, wire?_lay hc (isBound_of_listens hlistens)] at hw
        split at hw
        · rename_i hend
          exact ⟨c, Or.inr ⟨hend.1 ▸ rfl, hend.2.symm⟩⟩
        · split at hw
          · rename_i hend
            exact ⟨d, Or.inl ⟨hend.1 ▸ rfl, hend.2.symm⟩⟩
          · cases (h.wire?_eq_none hp a).symm.trans hw
    · rename_i hc
      exact absurd (by rw [if_neg hc]) hold
  · exact absurd (nextPeer_act n fun c d heq => hx ⟨c, d, heq⟩) hold

/-! ### Numbers at one moment -/

/-- No number is in use at two addresses. -/
def Unshared (n : Network) : Prop := ∀ {a b p w w'}, n.wire? a p = some w → n.wire? b p = some w' → a = b

theorem unshared_create (luck : Nat → Luck) : (create luck).Unshared := fun hw _ => by cases hw

theorem Unshared.act (hu : n.Unshared) (h : n.Sound) (x : Act) : (n.act x).Unshared := by
  intro a b p w w' hw hw'
  by_cases hp : p.val < n.nextPeer
  · obtain ⟨st, hold⟩ := (continues_act n x).leads (b := w.remote) (q := w.remotePeer) hw hp
    obtain ⟨st', hold'⟩ := (continues_act n x).leads (b := w'.remote) (q := w'.remotePeer) hw' hp
    exact hu hold hold'
  · -- Both ends are new, and of the two that are new each has its own number.
    have hge := Nat.not_lt.mp hp
    obtain ⟨c, ⟨rfl, rfl⟩ | ⟨rfl, rfl⟩⟩ := h.newcomer hw hge
    · obtain ⟨d, ⟨heq, -⟩ | ⟨-, hval⟩⟩ := h.newcomer hw' hge
      · exact (Act.connect.inj heq).1
      · exact absurd (congrArg Peer.val hval) (Nat.ne_of_lt (Nat.lt_succ_self _))
    · obtain ⟨d, ⟨-, hval⟩ | ⟨heq, -⟩⟩ := h.newcomer hw' hge
      · exact absurd (congrArg Peer.val hval).symm (Nat.ne_of_lt (Nat.lt_succ_self _))
      · exact (Act.connect.inj heq).2

theorem Acted.unshared (h : Acted A n n') (hn : n.Sound) (hu : n.Unshared) : n'.Unshared := by
  induction h with
  | refl => exact hu
  | act before _ ih => exact ih.act (before.sound hn) _

/-! ### Numbers over a run -/

/-- A number that has been in use is, as long as it is in use again later, that of the same end of the same link all the
    time between. -/
theorem Sound.unmixed (h : n.Sound) (hu : n.Unshared) (h₁ : Acted A n n') (h₂ : Acted A n' n'')
    (hw : n.wire? a p = some w) (hlater : n''.wire? c p = some w') :
    c = a ∧ w'.remote = w.remote ∧ w'.remotePeer = w.remotePeer ∧
      ∃ st, n'.wire? a p = some ⟨w.remote, w.remotePeer, st⟩ := by
  have hp := h.fresh hw
  obtain ⟨st₀, hfirst⟩ := (h₁.trans h₂).continues.leads (b := w'.remote) (q := w'.remotePeer) hlater hp
  obtain rfl := hu hfirst hw
  obtain ⟨hremote, hpeer, -⟩ := wire_inj (b := w.remote) (q := w.remotePeer) hw hfirst
  obtain ⟨st, hmid⟩ := h₂.continues.leads (b := w'.remote) (q := w'.remotePeer) hlater
    (Nat.lt_of_lt_of_le hp h₁.continues.nextPeer)
  exact ⟨rfl, hremote.symm, hpeer.symm, st, by rw [hremote, hpeer]; exact hmid⟩

/-- Acts that take down all links of an endpoint. -/
def Act.isolates (a : Address) : Act → Prop
  | .shutdown addr _ | .close addr => addr = a
  | _ => False

theorem Sound.isolated (h : n.Sound) (hx : x.isolates a) (p : Peer) : (n.act x).wire? a p = none := by
  cases x with
  | shutdown addr reason =>
    obtain rfl : addr = a := hx
    exact ((h.deafen addr).2.severAll addr reason).2.2.2 p
  | close addr =>
    obtain rfl : addr = a := hx
    refine wire?_of_not_bound ?_ p
    rw [Network.act, (h.close addr).2.2, if_pos rfl]
  | _ => exact hx.elim

/-- A link to or from an endpoint whose links were all taken down is a new one, with numbers that nobody had. -/
theorem Sound.gone (h : n.Sound) (hx : x.isolates a) (hafter : Acted A (n.act x) n') (hw : n'.wire? c p = some w)
    (hend : c = a ∨ w.remote = a) (b : Address) : n.wire? b p = none ∧ n.wire? b w.remotePeer = none := by
  have hnew : ∀ {c p w}, n'.wire? c p = some w → c = a ∨ w.remote = a → n.nextPeer ≤ p.val := by
    intro c p w hw hend
    refine Nat.not_lt.mp fun hp => ?_
    obtain ⟨st, hkept⟩ := hafter.continues.leads (b := w.remote) (q := w.remotePeer) hw
      (Nat.lt_of_lt_of_le hp (continues_act n x).nextPeer)
    rcases hend with rfl | hremote
    · exact (nomatch (h.isolated hx p).symm.trans hkept)
    · have hback := (h.act x).paired hkept
      rw [hremote] at hback
      exact (nomatch (h.isolated hx w.remotePeer).symm.trans hback)
  have hback := (hafter.sound (h.act x)).paired (b := w.remote) (q := w.remotePeer) hw
  exact ⟨h.wire?_eq_none (hnew hw hend) b, h.wire?_eq_none (hnew hback hend.symm) b⟩

/-! ### Whole runs -/

/-- Acts one after another. -/
def run (n : Network) (acts : List Act) : Network := acts.foldl act n

theorem run_acted (n : Network) (acts : List Act) : Acted (fun _ => True) n (n.run acts) :=
  .foldl (fun _ _ _ => .one trivial) n

/-- Links are symmetric, whatever is done: the endpoint that an end leads to is bound, and has the other end, which
    leads back in the same state. A number is that of one end of one link over a whole run: where it is in use at two
    moments, it is so at the same address, with a link to the same end, which was there all the time between. After an
    endpoint is shut down or closed no end of a link to or from it is one that was there before. -/
theorem run_links (luck : Nat → Luck) (acts : List Act) :
    let n := (create luck).run acts
    (∀ a p b q st, n.wire? a p = some ⟨b, q, st⟩ → n.isBound b = true ∧ n.wire? b q = some ⟨a, p, st⟩) ∧
    (∀ between later a p w c w', n.wire? a p = some w → ((n.run between).run later).wire? c p = some w' →
      c = a ∧ w'.remote = w.remote ∧ w'.remotePeer = w.remotePeer ∧
        ∃ st, (n.run between).wire? a p = some ⟨w.remote, w.remotePeer, st⟩) ∧
    ∀ a x later c p w, x.isolates a → ((n.act x).run later).wire? c p = some w → c = a ∨ w.remote = a →
      ∀ b, n.wire? b p = none ∧ n.wire? b w.remotePeer = none := by
  intro n
  have hacted := run_acted (create luck) acts
  have hsound : n.Sound := hacted.sound (sound_create luck)
  have hunshared : n.Unshared := hacted.unshared (sound_create luck) (unshared_create luck)
  refine ⟨fun a p b q st hw => ?_, fun between later a p w c w' hw hlater => ?_,
    fun a x later c p w hx hw hend b => ?_⟩
  · have hback := hsound.paired hw
    exact ⟨isBound_of_wire? hback, hback⟩
  · exact hsound.unmixed hunshared (run_acted n between) (run_acted _ later) hw hlater
  · exact hsound.gone hx (run_acted _ later) hw hend b

end StateSync.Network
