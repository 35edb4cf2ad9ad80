import StateSync.Proofs.Transport.Links

/-! What one end of a link can do (`Deals`): take an event, send a packet, grant a request and hang up. Only the two
    ends notice, and the other one is told if the link is taken down. -/

namespace StateSync.Network
variable {n n' n'' : Network} {a b c : Address} {p q r : Peer} {st : LinkState} {bytes : Bytes} {d : Delivery}

/-- A packet is on its way to an end, and nothing else is noticed. -/
def Posts (n n' : Network) (b : Address) (q : Peer) (bytes : Bytes) : Prop :=
  ∃ release, n.clock ≤ release ∧ Quiet (n.post b release (.data q bytes)) n'

namespace Posts

theorem quiet (hq : Quiet n n') (h : Posts n' n'' b q bytes) : Posts n n'' b q bytes := by
  obtain ⟨release, hr, hpost⟩ := h
  exact ⟨release, hq.clock ▸ hr, (hq.post _ _ _).trans hpost⟩

theorem wire? (h : Posts n n' b q bytes) (c : Address) (r : Peer) : n'.wire? c r = n.wire? c r := by
  obtain ⟨release, -, hq⟩ := h
  rw [hq.wire?, wire?_post]

theorem notes_of_ne (h : Posts n n' b q bytes) (hne : (b, q) ≠ (c, r)) : n'.notes c r = n.notes c r := by
  obtain ⟨release, -, hq⟩ := h
  rw [hq.notes, notes_post_of_ne hne]

theorem notes_perm (h : Posts n n' b q bytes) (hb : n.isBound b = true) :
    (n'.notes b q).Perm (.frame bytes :: n.notes b q) := by
  obtain ⟨release, -, hq⟩ := h
  rw [hq.notes]
  exact notes_post_perm hb release (.data q bytes)

theorem mem_inbox (h : Posts n n' b q bytes) (hb : n.isBound b = true) :
    ∃ release, ⟨release, .data q bytes⟩ ∈ n'.inbox b := by
  obtain ⟨release, -, hq⟩ := h
  refine ⟨release, ?_⟩
  rw [hq.inbox, inbox_post, if_pos ⟨rfl, hb⟩]
  exact Parcel.mem_enqueue.mpr (Or.inl rfl)

/-- A packet comes behind all that tells of the link. -/
theorem notes_last (hn : n.Sound) (h : Posts n n' b q bytes) (hb : n.isBound b = true)
    (hstatus : ∀ note ∈ n.notes b q, note.isStatus = true) : n'.notes b q = n.notes b q ++ [.frame bytes] := by
  obtain ⟨release, hr, hq⟩ := h
  rw [hq.notes]
  exact hn.notes_post_last hb (.data q bytes) hr hstatus

end Posts

/-- What one end of a link does is noticed at the two ends only, and if the link is taken down the other end is told. -/
structure Deals (n n' : Network) (a : Address) (p : Peer) : Prop where
  sound : n'.Sound
  alike : Alike n n' (AtLink n a p)
  leads : ∀ {b q st}, n'.wire? a p = some ⟨b, q, st⟩ → ∃ st', n.wire? a p = some ⟨b, q, st'⟩
  told : ∀ {b q st}, n.wire? a p = some ⟨b, q, st⟩ → n'.wire? a p = none → n'.wire? b q = none ∧ .down ∈ n'.notes b q

namespace Deals

theorem of_quiet (h : n.Sound) (hq : Quiet n n') (a : Address) (p : Peer) : Deals n n' a p where
  sound := h.quiet hq
  alike := hq.alike _
  leads hw := ⟨_, hq.wire? _ _ ▸ hw⟩
  told hw hnone := (nomatch (hq.wire? _ _).symm.trans hnone |>.symm.trans hw)

theorem trans (hn : n.Sound) (h : Deals n n' a p) (h' : Deals n' n'' a p) : Deals n n'' a p where
  sound := h'.sound
  alike := by
    refine h.alike.trans (h'.alike.mono fun c r hcr => ?_)
    rcases hcr with hcr | ⟨st, hw⟩
    · exact Or.inl hcr
    · exact Or.inr (h.leads hw)
  leads hw := by
    obtain ⟨st, hw⟩ := h'.leads hw
    exact h.leads hw
  told {b q st} hw hnone := by
    cases hw' : n'.wire? a p with
    | some w =>
      obtain ⟨b', q', st'⟩ := w
      obtain ⟨st₀, hw₀⟩ := h.leads hw'
      obtain ⟨rfl, rfl, -⟩ := wire_inj hw hw₀
      exact h'.told hw' hnone
    | none =>
      -- The link was gone before, and its other end has been left alone since.
      obtain ⟨hfar, hdown⟩ := h.told hw hw'
      have hother : ¬ AtLink n' a p b q := by
        rintro (⟨rfl, -⟩ | ⟨st, hst⟩)
        · exact hn.apart hw rfl
        · exact (nomatch hw'.symm.trans hst)
      rw [h'.alike.wire? hother, h'.alike.notes hother]
      exact ⟨hfar, hdown⟩

theorem of_severs (h : Severs n n' a p) : Deals n n' a p :=
  ⟨h.sound, h.alike, fun hw => (nomatch h.near.symm.trans hw), fun hw _ => h.far hw⟩

theorem of_poll (h : n.Sound) {ev : TransportEvent} (hpoll : n.poll a = (some ev, n')) : Deals n n' a ev.peer := by
  obtain ⟨hsound, halike, hwire, -⟩ := h.poll hpoll
  refine ⟨hsound, halike.mono fun c r hcr => Or.inl hcr, fun hw => ⟨_, hwire _ _ ▸ hw⟩, fun hw hnone => ?_⟩
  rw [hwire] at hnone
  exact (nomatch hnone.symm.trans hw)

theorem of_posts (h : n.Sound) (hw : n.wire? a p = some ⟨b, q, st⟩) (hs : Posts n n' b q bytes) : Deals n n' a p := by
  obtain ⟨release, -, hq⟩ := hs
  have hpost : (n.post b release (.data q bytes)).Sound :=
    h.post (h.fresh (h.paired hw)) (fun hs => (nomatch hs)) fun hd => (nomatch hd)
  refine ⟨hpost.quiet hq, (alike_post (Or.inr ⟨st, hw⟩)).trans (hq.alike _), fun {b q st} hw' => ⟨st, ?_⟩,
    fun _ hnone => ?_⟩
  · rwa [hq.wire?, wire?_post] at hw'
  · rw [hq.wire?, wire?_post] at hnone
    exact (nomatch hnone.symm.trans hw)

/-- The other end of a link, if it has none any more, has been told. -/
theorem down_far (h : Deals n n' a p) (hw : n.wire? a p = some ⟨b, q, st⟩) (hnone : n'.wire? b q = none) :
    .down ∈ n'.notes b q := by
  cases hw' : n'.wire? a p with
  | none => exact (h.told hw hw').2
  | some w =>
    obtain ⟨b', q', st'⟩ := w
    obtain ⟨st₀, hw₀⟩ := h.leads hw'
    obtain ⟨rfl, rfl, -⟩ := wire_inj hw hw₀
    exact (nomatch hnone.symm.trans (h.sound.paired hw'))

/-- A link that does not end here is another one. -/
theorem not_atLink (h : Deals n n' a p) (hw : n'.wire? b q = some ⟨c, r, st⟩) (hb : ¬ (b = a ∧ q = p))
    (hc : ¬ (c = a ∧ r = p)) : ¬ AtLink n a p b q := by
  intro hlink
  obtain ⟨st₀, hw₀⟩ := hlink.resolve_left hb
  cases hw' : n'.wire? a p with
  | none => exact (nomatch (h.told hw₀ hw').1.symm.trans hw)
  | some w =>
    obtain ⟨b', q', st'⟩ := w
    obtain ⟨st₁, hw₁⟩ := h.leads hw'
    obtain ⟨rfl, rfl, -⟩ := wire_inj hw₀ hw₁
    obtain ⟨rfl, rfl, -⟩ := wire_inj hw (h.sound.paired hw')
    exact hc ⟨rfl, rfl⟩

end Deals

/-! ### Packets -/

/-- What a connected link makes of a packet. -/
theorem transmit_eq {l : Link} (hl : n.link? a p = some l) (hst : l.state = .connected) (bytes : Bytes) (d : Delivery)
    (delay : Nat) :
    let release := if d.isOrdered then max (n.clock + delay) l.orderedRelease else n.clock + delay
    let n₁ := if d.isOrdered then n.setLink a p { l with orderedRelease := release } else n
    n.transmit a p bytes d delay =
      (.ok (), (n₁.post l.remote release (.data l.remotePeer bytes)).update a (countSent bytes.length)) := by
  intro release n₁
  unfold transmit
  rw [hl]
  dsimp only
  rw [if_neg fun hne => hne hst]

theorem transmit_connected (hw : n.wire? a p = some ⟨b, q, .connected⟩) (bytes : Bytes) (d : Delivery) (delay : Nat) :
    ∃ n', n.transmit a p bytes d delay = (.ok (), n') ∧ Posts n n' b q bytes := by
  obtain ⟨l, hl, hwire⟩ := link?_of_wire? hw
  obtain ⟨rfl, rfl, hst⟩ := Wire.mk.inj hwire
  have hcount : ∀ n : Network, Quiet n (n.update a (countSent bytes.length)) := fun n =>
    .update (f := countSent bytes.length) (fun _ => ⟨rfl, rfl, rfl⟩) n a
  rw [transmit_eq hl hst]
  cases d.isOrdered with
  | true =>
    refine ⟨_, rfl, max (n.clock + delay) l.orderedRelease, ?_, ?_⟩
    · exact Nat.le_trans (Nat.le_add_right _ _) (Nat.le_max_left _ _)
    · exact ((Quiet.setLink hl _).post _ _ _).trans (hcount _)
  | false => exact ⟨_, rfl, n.clock + delay, Nat.le_add_right _ _, hcount _⟩

theorem transmit_refused (hw : ∀ b q, n.wire? a p ≠ some ⟨b, q, .connected⟩) (bytes : Bytes) (d : Delivery)
    (delay : Nat) : ∃ e, n.transmit a p bytes d delay = (.error e, n) := by
  unfold transmit
  cases hl : n.link? a p with
  | none => exact ⟨_, rfl⟩
  | some l =>
    have hst : l.state ≠ .connected := fun hst => hw l.remote l.remotePeer (by
      rw [wire?_of_link? hl, Link.wire, hst])
    dsimp only
    rw [if_pos hst]
    exact ⟨_, rfl⟩

theorem Quiet.sends (n : Network) : Quiet n { n with sends := n.sends + 1 } :=
  ⟨rfl, rfl, fun _ => rfl, fun _ => rfl, fun _ => rfl, fun _ _ => rfl⟩

theorem Quiet.noteDelay (n : Network) (i : Impairment) (luck : Luck) : Quiet n (n.noteDelay i luck) :=
  ⟨rfl, rfl, fun _ => rfl, fun _ => rfl, fun _ => rfl, fun _ _ => rfl⟩

theorem send_connected (hw : n.wire? a p = some ⟨b, q, .connected⟩) (hd : d.isReliable = true) (bytes : Bytes) :
    ∃ n', n.send a p bytes d = (.ok (), n') ∧ Posts n n' b q bytes := by
  obtain ⟨e, he⟩ := Option.isSome_iff_exists.mp (isBound_of_wire? hw)
  have hq := (Quiet.sends n).trans (.noteDelay _ e.impairment (n.luck n.sends))
  obtain ⟨n', heq, hposts⟩ := transmit_connected ((hq.wire? a p).trans hw) bytes d
    (e.impairment.delay (n.luck n.sends) * millisecond)
  refine ⟨n', ?_, .quiet hq hposts⟩
  unfold send
  rw [show n.endpoint? a = some e from he]
  dsimp only
  rw [if_pos hd]
  exact heq

theorem send_refused (hw : ∀ b q, n.wire? a p ≠ some ⟨b, q, .connected⟩) (hd : d.isReliable = true) (bytes : Bytes) :
    ∃ e, (n.send a p bytes d).1 = .error e := by
  unfold send
  cases n.endpoint? a with
  | none => exact ⟨_, rfl⟩
  | some e =>
    dsimp only
    rw [if_pos hd]
    obtain ⟨f, heq⟩ := transmit_refused
      (n := ({ n with sends := n.sends + 1 } : Network).noteDelay e.impairment (n.luck n.sends)) hw bytes d
      (e.impairment.delay (n.luck n.sends) * millisecond)
    exact ⟨f, congrArg Prod.fst heq⟩

/-- A reliable packet is on its way if the transport has taken it. -/
theorem send_eq_ok (hd : d.isReliable = true) (h : n.send a p bytes d = (.ok (), n')) :
    ∃ b q, n.wire? a p = some ⟨b, q, .connected⟩ ∧ Posts n n' b q bytes := by
  by_cases hw : ∃ b q, n.wire? a p = some ⟨b, q, .connected⟩
  · obtain ⟨b, q, hw⟩ := hw
    obtain ⟨n'', heq, hposts⟩ := send_connected hw hd bytes
    obtain ⟨-, rfl⟩ := Prod.mk.inj (h.symm.trans heq)
    exact ⟨b, q, hw, hposts⟩
  · obtain ⟨e, he⟩ := send_refused (fun b q hw' => hw ⟨b, q, hw'⟩) hd bytes
    rw [h] at he
    cases he

theorem restartWindow_keeps (now : Nat) (e : Endpoint) : (restartWindow now e).listening = e.listening ∧
    (restartWindow now e).inbox = e.inbox ∧ (restartWindow now e).links = e.links := by
  unfold restartWindow
  split <;> exact ⟨rfl, rfl, rfl⟩

/-- Any packet is on its way to the other end of a connected link, or not noticed by anybody. -/
theorem send_cases (n : Network) (a : Address) (p : Peer) (bytes : Bytes) (d : Delivery) :
    Quiet n (n.send a p bytes d).2 ∨
      ∃ b q, n.wire? a p = some ⟨b, q, .connected⟩ ∧ Posts n (n.send a p bytes d).2 b q bytes := by
  have htransmit : ∀ {n₁ : Network} (delay : Nat), Quiet n n₁ → Quiet n (n₁.transmit a p bytes d delay).2 ∨
      ∃ b q, n.wire? a p = some ⟨b, q, .connected⟩ ∧ Posts n (n₁.transmit a p bytes d delay).2 b q bytes := by
    intro n₁ delay hq
    by_cases hw : ∃ b q, n.wire? a p = some ⟨b, q, .connected⟩
    · obtain ⟨b, q, hw⟩ := hw
      obtain ⟨n₂, heq, hposts⟩ := transmit_connected ((hq.wire? a p).trans hw) bytes d delay
      rw [heq]
      exact Or.inr ⟨b, q, hw, .quiet hq hposts⟩
    · obtain ⟨e, heq⟩ := transmit_refused (n := n₁) (fun b q hw₁ => hw ⟨b, q, hq.wire? a p ▸ hw₁⟩) bytes d delay
      rw [heq]
      exact Or.inl hq
  have hq := Quiet.sends n
  have hupdate : ∀ {n₁ : Network} {f : Endpoint → Endpoint}, Quiet n n₁ →
      (∀ e, (f e).listening = e.listening ∧ (f e).inbox = e.inbox ∧ (f e).links = e.links) →
      Quiet n (n₁.update a f) := fun hq hf => hq.trans (.update hf _ a)
  unfold send
  cases he : n.endpoint? a with
  | none => exact Or.inl (.refl n)
  | some e =>
    dsimp only
    split
    · exact htransmit _ (hq.trans (.noteDelay ..))
    · split
      · exact Or.inl (hupdate hq fun _ => ⟨rfl, rfl, rfl⟩)
      · split
        · exact Or.inl (hupdate (hupdate hq (restartWindow_keeps _)) fun _ => ⟨rfl, rfl, rfl⟩)
        · exact htransmit _ ((hupdate hq (restartWindow_keeps _)).trans (.noteDelay ..))

/-- A packet changes no link, and reaches no end but the other one. -/
theorem Sound.send_reaches (h : n.Sound) (a : Address) (p : Peer) (bytes : Bytes) (d : Delivery) :
    let n' := (n.send a p bytes d).2
    (∀ b q, n'.wire? b q = n.wire? b q) ∧ n'.notes a p = n.notes a p ∧ ∀ {b q st}, n.wire? a p = some ⟨b, q, st⟩ →
      n'.notes b q = n.notes b q ∨ (n'.notes b q).Perm (.frame bytes :: n.notes b q) := by
  rcases n.send_cases a p bytes d with hq | ⟨b, q, hw, hposts⟩
  · exact ⟨hq.wire?, hq.notes a p, fun _ => Or.inl (hq.notes _ _)⟩
  · refine ⟨hposts.wire?, hposts.notes_of_ne fun heq => h.apart hw (Prod.mk.inj heq).1, fun hw' => ?_⟩
    obtain ⟨rfl, rfl, -⟩ := wire_inj hw hw'
    exact Or.inr (hposts.notes_perm (isBound_of_wire? (h.paired hw)))

theorem Sound.deals_send (h : n.Sound) (a : Address) (p : Peer) (bytes : Bytes) (d : Delivery) :
    Deals n (n.send a p bytes d).2 a p := by
  rcases n.send_cases a p bytes d with hq | ⟨b, q, hw, hposts⟩
  · exact .of_quiet h hq a p
  · exact .of_posts h hw hposts

/-! ### Approval -/

theorem approve_none (hw : n.wire? a p = none) : n.approve a p = (.error (.unknownPeer p), n) := by
  have hl : n.link? a p = none := Option.map_eq_none_iff.mp hw
  rw [approve, hl]

theorem approve_connected (hw : n.wire? a p = some ⟨b, q, .connected⟩) : n.approve a p = (.ok (), n) := by
  obtain ⟨l, hl, hwire⟩ := link?_of_wire? hw
  rw [approve, hl]
  dsimp only
  rw [if_pos (Wire.mk.inj hwire).2.2]

/-- A link whose two ends are connected. -/
def join (n : Network) (a : Address) (p : Peer) (l : Link) (b : Address) (q : Peer) (l' : Link) : Network :=
  (n.setLink a p { l with state := .connected }).setLink b q { l' with state := .connected }

section
variable {l l' : Link}

theorem wire?_join (hl : n.link? a p = some l) (hl' : n.link? b q = some l') (c : Address) (r : Peer) :
    (n.join a p l b q l').wire? c r = if (b = c ∧ q = r) ∨ (a = c ∧ p = r)
      then (n.wire? c r).map fun w => { w with state := .connected } else n.wire? c r := by
  have ha := isBound_of_wire? (wire?_of_link? hl)
  have hb := isBound_of_wire? (wire?_of_link? hl')
  rw [join, wire?_setLink, wire?_setLink, isBound_setLink, ha, hb]
  by_cases hbc : b = c ∧ q = r
  · obtain ⟨rfl, rfl⟩ := hbc
    rw [if_pos ⟨rfl, rfl, rfl⟩, if_pos (Or.inl ⟨rfl, rfl⟩), wire?_of_link? hl']
    rfl
  · rw [if_neg fun h => hbc ⟨h.1, h.2.1⟩]
    by_cases hac : a = c ∧ p = r
    · obtain ⟨rfl, rfl⟩ := hac
      rw [if_pos ⟨rfl, rfl, rfl⟩, if_pos (Or.inr ⟨rfl, rfl⟩), wire?_of_link? hl]
      rfl
    · rw [if_neg fun h => hac ⟨h.1, h.2.1⟩, if_neg (not_or.mpr ⟨hbc, hac⟩)]

theorem Sound.join (h : n.Sound) (hw : n.wire? a p = some ⟨b, q, st⟩) (hl : n.link? a p = some l)
    (hl' : n.link? b q = some l') : (n.join a p l b q l').Sound := by
  have hold : ∀ {c r d s st'}, (n.join a p l b q l').wire? c r = some ⟨d, s, st'⟩ →
      ∃ st₀, n.wire? c r = some ⟨d, s, st₀⟩ ∧
        st' = if (b = c ∧ q = r) ∨ (a = c ∧ p = r) then .connected else st₀ := by
    intro c r d s st' hc
    rw [wire?_join hl hl'] at hc
    split at hc
    · rename_i hend
      obtain ⟨⟨d', s', st₀⟩, hw₀, heq⟩ := Option.map_eq_some_iff.mp hc
      obtain ⟨rfl, rfl, rfl⟩ := Wire.mk.inj heq
      exact ⟨st₀, hw₀, (if_pos hend).symm⟩
    · rename_i hend
      exact ⟨st', hc, (if_neg hend).symm⟩
  refine h.relink rfl (Nat.le_refl _) (fun c => by simp [Network.join])
    (fun {c r d s st'} hc => ?_) fun {c r w} hc => ?_
  · obtain ⟨st₀, hw₀, rfl⟩ := hold hc
    have hback := h.paired hw₀
    -- An end is at this link if and only if its other end is.
    have hends : ((b = d ∧ q = s) ∨ (a = d ∧ p = s)) ↔ ((b = c ∧ q = r) ∨ (a = c ∧ p = r)) := by
      have hfar := h.paired hw
      constructor
      · rintro (⟨rfl, rfl⟩ | ⟨rfl, rfl⟩)
        · obtain ⟨rfl, rfl, -⟩ := wire_inj hfar hback
          exact Or.inr ⟨rfl, rfl⟩
        · obtain ⟨rfl, rfl, -⟩ := wire_inj hw hback
          exact Or.inl ⟨rfl, rfl⟩
      · rintro (⟨rfl, rfl⟩ | ⟨rfl, rfl⟩)
        · obtain ⟨rfl, rfl, -⟩ := wire_inj hfar hw₀
          exact Or.inr ⟨rfl, rfl⟩
        · obtain ⟨rfl, rfl, -⟩ := wire_inj hw hw₀
          exact Or.inl ⟨rfl, rfl⟩
    rw [wire?_join hl hl', hback]
    simp only [hends]
    split <;> rfl
  · obtain ⟨st₀, hw₀, -⟩ := hold (d := w.remote) (s := w.remotePeer) hc
    exact ⟨(h.apart hw₀ :), h.fresh hw₀, h.not_down hw₀⟩

end

theorem Sound.approve_eq (h : n.Sound) {l : Link} (hl : n.link? a p = some l) (hst : l.state = .awaitingApproval) :
    ∃ l', n.link? l.remote l.remotePeer = some l' ∧
      n.approve a p = (.ok (), ((n.join a p l l.remote l.remotePeer l').post a n.clock (.connected p "")).post l.remote
        n.clock (.connected l.remotePeer "")) := by
  have hw := wire?_of_link? hl
  have hne := h.apart hw
  obtain ⟨l', hl', -⟩ := link?_of_wire? (h.paired hw)
  have hfar : (n.setLink a p { l with state := .connected }).link? l.remote l.remotePeer = some l' := by
    rw [link?_setLink, if_neg fun heq => hne heq.1.symm]
    exact hl'
  have hawaiting : l.state ≠ .connected := by
    rw [hst]
    exact LinkState.noConfusion
  refine ⟨l', hl', ?_⟩
  unfold Network.approve
  rw [hl]
  dsimp only
  rw [if_neg hawaiting, hfar]
  rfl

theorem Sound.approve (h : n.Sound) (hw : n.wire? a p = some ⟨b, q, .awaitingApproval⟩) :
    ∃ n', n.approve a p = (.ok (), n') ∧ Deals n n' a p ∧ n'.wire? a p = some ⟨b, q, .connected⟩ ∧
      (n'.notes a p).Perm (.up :: n.notes a p) ∧ (n'.notes b q).Perm (.up :: n.notes b q) := by
  have hne := h.apart hw
  have hfar := h.paired hw
  obtain ⟨l, hl, hwire⟩ := link?_of_wire? hw
  obtain ⟨rfl, rfl, hst⟩ := Wire.mk.inj hwire
  obtain ⟨l', hl', happrove⟩ := h.approve_eq hl hst
  let n₁ := n.join a p l l.remote l.remotePeer l'
  let n₂ := n₁.post a n.clock (.connected p "")
  let n₃ := n₂.post l.remote n.clock (.connected l.remotePeer "")
  have hsound₁ : n₁.Sound := h.join hw hl hl'
  have hsound₂ : n₂.Sound := hsound₁.post (h.fresh hw) (fun _ => Nat.le_refl _) fun hd => by cases hd
  have hsound₃ : n₃.Sound := hsound₂.post (h.fresh hfar) (fun _ => Nat.le_refl _) fun hd => by cases hd
  have hbound₂ : ∀ c, n₂.isBound c = n.isBound c := fun c => by simp [n₂, n₁, Network.join]
  have hwire₃ : ∀ c r, n₃.wire? c r = n₁.wire? c r := fun c r => by rw [wire?_post, wire?_post]
  have hnotes₁ : ∀ c r, n₁.notes c r = n.notes c r := by
    intro c r
    simp [n₁, Network.join, notes]
  have hnear : n₃.wire? a p = some ⟨l.remote, l.remotePeer, .connected⟩ := by
    rw [hwire₃, wire?_join hl hl', if_pos (Or.inr ⟨rfl, rfl⟩), hw]
    rfl
  have halike : Alike n n₃ (AtLink n a p) := by
    refine ⟨fun c => ?_, fun c => by simp [n₃, n₂, n₁, Network.join], fun {c r} hcr => ?_, fun {c r} hcr => ?_⟩
    · rw [isBound_post, hbound₂]
    · rw [hwire₃, wire?_join hl hl', if_neg]
      rintro (⟨rfl, rfl⟩ | ⟨rfl, rfl⟩)
      · exact hcr (Or.inr ⟨_, hw⟩)
      · exact hcr (Or.inl ⟨rfl, rfl⟩)
    · rw [notes_post_of_ne, notes_post_of_ne, hnotes₁]
      · exact fun heq => hcr (Or.inl ((Prod.mk.inj heq).imp Eq.symm Eq.symm))
      · intro heq
        obtain ⟨rfl, rfl⟩ := Prod.mk.inj heq
        exact hcr (Or.inr ⟨_, hw⟩)
  refine ⟨n₃, happrove, ⟨hsound₃, halike, fun hw' => ?_, fun _ hnone => by cases hnear.symm.trans hnone⟩, hnear, ?_,
    ?_⟩
  · obtain ⟨rfl, rfl, -⟩ := wire_inj hnear hw'
    exact ⟨_, hw⟩
  · have hbound₁ : n₁.isBound a = true := (isBound_post ..).symm.trans ((hbound₂ a).trans (isBound_of_wire? hw))
    have hperm := notes_post_perm hbound₁ n.clock (.connected p "")
    rw [notes_post_of_ne fun heq => hne (Prod.mk.inj heq).1, ← hnotes₁]
    exact hperm
  · have hperm := notes_post_perm ((hbound₂ _).trans (isBound_of_wire? hfar)) n.clock (.connected l.remotePeer "")
    have hsame : n₂.notes l.remote l.remotePeer = n.notes l.remote l.remotePeer := by
      rw [notes_post_of_ne fun heq => hne (Prod.mk.inj heq).1.symm, hnotes₁]
    rw [← hsame]
    exact hperm

theorem Sound.deals_approve (h : n.Sound) (a : Address) (p : Peer) : Deals n (n.approve a p).2 a p := by
  cases hw : n.wire? a p with
  | none =>
    rw [approve_none hw]
    exact .of_quiet h (.refl n) a p
  | some w =>
    obtain ⟨b, q, st⟩ := w
    cases st with
    | connected =>
      rw [approve_connected hw]
      exact .of_quiet h (.refl n) a p
    | awaitingApproval =>
      obtain ⟨n', heq, hdeals, -⟩ := h.approve hw
      rw [heq]
      exact hdeals

end StateSync.Network
