import StateSync.Proofs.Transport.Acted
import StateSync.Proofs.Transport.Backlog

/-! What an act comes to at one end of a link (`Network.Sound.happens`): an event for the end is polled or put on its way
    to it, and what tells of the link comes behind all that was told of it before. To take links down, one by one or all
    those of an endpoint, is at each end either not noticed or known by the reason (`Parting`). -/

namespace StateSync

/-- The events about a peer among parcels, in their order. -/
def mailFor (p : Peer) (parcels : List Parcel) : List TransportEvent :=
  (parcels.filter fun x => x.event.peer = p).map (·.event)

/-- An event is put in, with none but packets behind it. -/
def Inserts (e : TransportEvent) (old new : List TransportEvent) : Prop :=
  ∃ us vs, old = us ++ vs ∧ new = us ++ e :: vs ∧ ∀ v ∈ vs, v.isPacket = true

section
variable {x : Parcel} {xs : List Parcel} {p : Peer} {e : TransportEvent}

theorem mailFor_cons :
    mailFor p (x :: xs) = if x.event.peer = p then x.event :: mailFor p xs else mailFor p xs := by
  by_cases h : x.event.peer = p <;> simp [mailFor, h]

theorem mem_mailFor : e ∈ mailFor p xs ↔ e.peer = p ∧ ∃ x ∈ xs, x.event = e := by
  simp only [mailFor, List.mem_map, List.mem_filter, decide_eq_true_eq]
  constructor
  · rintro ⟨x, ⟨hx, hp⟩, rfl⟩
    exact ⟨hp, x, hx, rfl⟩
  · rintro ⟨hp, x, hx, rfl⟩
    exact ⟨x, ⟨hx, hp⟩, rfl⟩

namespace Parcel

theorem mailFor_enqueue_of_ne (h : x.event.peer ≠ p) (xs : List Parcel) :
    mailFor p (x.enqueue xs) = mailFor p xs := by
  induction xs with
  | nil => rw [enqueue, mailFor_cons, if_neg h]
  | cons q qs ih =>
    rw [enqueue]
    split
    · rw [mailFor_cons, mailFor_cons, ih]
    · rw [mailFor_cons, if_neg h]

/-- Only packets are released later than a parcel that is released no earlier than all that tells of a link. -/
theorem inserts_enqueue (h : x.event.peer = p) (hs : Sorted xs)
    (hle : ∀ y ∈ xs, y.event.isPacket = false → y.release ≤ x.release) :
    Inserts x.event (mailFor p xs) (mailFor p (x.enqueue xs)) := by
  induction xs with
  | nil => exact ⟨[], [], rfl, by rw [enqueue, mailFor_cons, if_pos h]; rfl, nofun⟩
  | cons q qs ih =>
    obtain ⟨hq, hqs⟩ := List.pairwise_cons.mp hs
    rw [enqueue]
    split
    · obtain ⟨us, vs, hold, hnew, hvs⟩ := ih hqs fun y hy => hle y (List.mem_cons_of_mem _ hy)
      rw [mailFor_cons, mailFor_cons, hold, hnew]
      split
      · exact ⟨q.event :: us, vs, rfl, rfl, hvs⟩
      · exact ⟨us, vs, rfl, rfl, hvs⟩
    · rename_i hlt
      refine ⟨[], mailFor p (q :: qs), rfl, by rw [mailFor_cons, if_pos h]; rfl, fun v hv => ?_⟩
      obtain ⟨-, y, hy, rfl⟩ := mem_mailFor.mp hv
      refine eq_true_of_ne_false fun hstatus => hlt ?_
      have hsooner := hle y hy hstatus
      rcases List.mem_cons.mp hy with rfl | hmem
      · exact hsooner
      · exact Nat.le_trans (hq y hmem) hsooner

end Parcel
end

namespace Network

/-- The reason of an act by which links are taken down. -/
def Act.reason : Act → String
  | .shutdown _ reason | .disconnect _ _ reason => reason
  | .close _ => "endpoint closed"
  | _ => ""

variable {n n' n'' : Network} {a b c : Address} {p q r : Peer} {w : Wire} {st : LinkState} {x : Act}
  {reason : String} {e e' : TransportEvent} {release : Nat}

/-- The events about a peer on their way to an address. -/
def mail (n : Network) (a : Address) (p : Peer) : List TransportEvent := mailFor p (n.inbox a)

theorem mail_congr (h : n'.inbox a = n.inbox a) (p : Peer) : n'.mail a p = n.mail a p := by
  rw [mail, h, mail]

theorem mail_of_not_bound (h : n.isBound a = false) (p : Peer) : n.mail a p = [] := by
  rw [isBound_eq, Option.isSome_eq_false_iff, Option.isNone_iff_eq_none] at h
  rw [mail, inbox, h]
  rfl

theorem Sound.mail_eq_nil (h : n.Sound) (hp : n.nextPeer ≤ p.val) (a : Address) : n.mail a p = [] := by
  refine List.eq_nil_iff_forall_not_mem.mpr fun e he => ?_
  obtain ⟨rfl, x, hx, rfl⟩ := mem_mailFor.mp he
  exact absurd (h.mailed hx) (Nat.not_lt.mpr hp)

theorem mail_post_of_ne (h : (a, e.peer) ≠ (c, r)) : (n.post a release e).mail c r = n.mail c r := by
  rw [mail, inbox_post, mail]
  split
  · rename_i hac
    obtain ⟨rfl, -⟩ := hac
    exact Parcel.mailFor_enqueue_of_ne (fun hp => h (Prod.ext rfl hp)) _
  · rfl

theorem Sound.inserts_post (h : n.Sound) (hb : n.isBound a = true) (hr : n.clock ≤ release) (e : TransportEvent) :
    Inserts e (n.mail a e.peer) ((n.post a release e).mail a e.peer) := by
  rw [mail, mail, inbox_post, if_pos ⟨rfl, hb⟩]
  refine Parcel.inserts_enqueue (x := ⟨release, e⟩) rfl (h.sorted a) fun y hy hstatus => ?_
  refine Nat.le_trans (h.prompt hy ?_) hr
  rwa [TransportEvent.isPacket, Bool.not_eq_false'] at hstatus

/-! ### Telling both ends of a link -/

/-- Both ends are told something at once. -/
def tellBoth (n : Network) (a : Address) (e : TransportEvent) (b : Address) (e' : TransportEvent) : Network :=
  (n.post a n.clock e).post b n.clock e'

theorem mail_tellBoth_of_ne (ha : (a, e.peer) ≠ (c, r)) (hb : (b, e'.peer) ≠ (c, r)) :
    (n.tellBoth a e b e').mail c r = n.mail c r := by
  rw [tellBoth, mail_post_of_ne hb, mail_post_of_ne ha]

theorem Sound.inserts_near (h : n.Sound) (ha : n.isBound a = true) (hne : b ≠ a) (e e' : TransportEvent) :
    Inserts e (n.mail a e.peer) ((n.tellBoth a e b e').mail a e.peer) := by
  rw [tellBoth, mail_post_of_ne fun heq => hne (Prod.mk.inj heq).1]
  exact h.inserts_post ha (Nat.le_refl _) e

theorem Sound.inserts_far (h : n.Sound) (hb : n.isBound b = true) (hne : b ≠ a) (e e' : TransportEvent) :
    Inserts e' (n.mail b e'.peer) ((n.tellBoth a e b e').mail b e'.peer) := by
  -- What the near end was told makes no difference at the other address.
  have hinbox : (n.post a n.clock e).inbox b = n.inbox b := by
    rw [inbox_post, if_neg fun heq => hne heq.1.symm]
  have hpost : (n.tellBoth a e b e').inbox b = (n.post b n.clock e').inbox b := by
    rw [tellBoth, inbox_post, hinbox, isBound_post, inbox_post]
  rw [mail_congr hpost]
  exact h.inserts_post hb (Nat.le_refl _) e'

/-! ### Taking down links -/

/-- What comes to an end while links are taken down for a reason: nothing, or its own link is one of them. -/
inductive Parting (n n' : Network) (c : Address) (r : Peer) (reason : String) : Prop
  | spared (wire : n'.wire? c r = n.wire? c r) (mail : n'.mail c r = n.mail c r)
  | parted {w : Wire} (before : n.wire? c r = some w) (after : n'.wire? c r = none)
      (mail : Inserts (.disconnected r reason) (n.mail c r) (n'.mail c r))

namespace Parting

theorem refl (n : Network) (c : Address) (r : Peer) (reason : String) : Parting n n c r reason := .spared rfl rfl

theorem trans (h : Parting n n' c r reason) (h' : Parting n' n'' c r reason) : Parting n n'' c r reason := by
  cases h with
  | spared wire mail =>
    cases h' with
    | spared wire' mail' => exact .spared (wire'.trans wire) (mail'.trans mail)
    | parted before' after' mail' => exact .parted (wire ▸ before') after' (mail ▸ mail')
  | parted before after mail =>
    cases h' with
    | spared wire' mail' => exact .parted before (wire'.trans after) (mail' ▸ mail)
    | parted before' _ _ => exact (nomatch after.symm.trans before')

/-- The link of an end that has none any more is one of those that were taken down. -/
theorem told (h : Parting n n' c r reason) (hbefore : n.wire? c r = some w) (hafter : n'.wire? c r = none) :
    Inserts (.disconnected r reason) (n.mail c r) (n'.mail c r) := by
  cases h with
  | spared wire mail => exact (nomatch (wire.symm.trans hafter).symm.trans hbefore)
  | parted before after mail => exact mail

end Parting

theorem unlinkTelling_eq (n : Network) (a : Address) (p : Peer) (b : Address) (q : Peer) (reason : String) :
    n.unlinkTelling a p b q reason =
      (n.unlink a p b q).tellBoth a (.disconnected p reason) b (.disconnected q reason) := rfl

theorem Sound.parting_sever (h : n.Sound) (a : Address) (p : Peer) (reason : String) (c : Address) (r : Peer) :
    Parting n (n.sever a p reason) c r reason := by
  cases hw : n.wire? a p with
  | none =>
    rw [sever_none hw]
    exact .refl n c r reason
  | some w =>
    obtain ⟨b, q, st⟩ := w
    have hq := h.sever_eq hw reason
    have hne : b ≠ a := h.apart hw
    have hunlinked := h.unlink hw
    have hwire := wire?_unlinkTelling n a p b q reason c r
    have hbound : ∀ d, (n.unlink a p b q).isBound d = n.isBound d := fun d => by
      rw [Network.unlink, isBound_dropLink, isBound_dropLink]
    have hmail : ∀ d s, (n.unlink a p b q).mail d s = n.mail d s := fun d => mail_congr (inbox_unlink n a p b q d)
    by_cases hnear : (a, p) = (c, r)
    · obtain ⟨rfl, rfl⟩ := Prod.mk.inj hnear
      refine .parted hw ((hq.wire? _ _).trans (hwire.trans (if_pos (Or.inr ⟨rfl, rfl⟩)))) ?_
      rw [mail_congr (hq.inbox a), unlinkTelling_eq, ← hmail]
      exact hunlinked.inserts_near ((hbound a).trans (isBound_of_wire? hw)) hne (.disconnected p reason) _
    · by_cases hfar : (b, q) = (c, r)
      · obtain ⟨rfl, rfl⟩ := Prod.mk.inj hfar
        have hw' := h.paired hw
        refine .parted hw' ((hq.wire? _ _).trans (hwire.trans (if_pos (Or.inl ⟨rfl, rfl⟩)))) ?_
        rw [mail_congr (hq.inbox b), unlinkTelling_eq, ← hmail]
        exact hunlinked.inserts_far ((hbound b).trans (isBound_of_wire? hw')) hne _ (.disconnected q reason)
      · refine .spared ((hq.wire? c r).trans (hwire.trans (if_neg ?_))) ?_
        · rintro (⟨rfl, rfl⟩ | ⟨rfl, rfl⟩)
          · exact hfar rfl
          · exact hnear rfl
        · rw [mail_congr (hq.inbox c), unlinkTelling_eq, mail_tellBoth_of_ne hnear hfar, hmail]

theorem Sound.parting_severAll (h : n.Sound) (a : Address) (reason : String) (c : Address) (r : Peer) :
    Parting n (n.severAll a reason) c r reason := by
  have hfold : ∀ (ps : List Peer) {n : Network}, n.Sound →
      Parting n (ps.foldl (fun n p => n.sever a p reason) n) c r reason := by
    intro ps
    induction ps with
    | nil => exact fun {n} _ => .refl n c r reason
    | cons p ps ih => exact fun hn => (hn.parting_sever a p reason c r).trans (ih (hn.severs a p reason).sound)
  unfold Network.severAll
  split
  · exact .refl n c r reason
  · exact hfold _ h

theorem Sound.parting_shutdown (h : n.Sound) (a : Address) (reason : String) (c : Address) (r : Peer) :
    Parting n (n.shutdown a reason) c r reason := by
  let f : Endpoint → Endpoint := fun e => { e with listening := false }
  have hdeaf : Parting n (n.deafen a) c r reason :=
    .spared (wire?_update (f := f) (fun _ => rfl) n a c r) (mail_congr (inbox_update (f := f) (fun _ => rfl) n a c) r)
  exact hdeaf.trans ((h.deafen a).2.parting_severAll a reason c r)

/-- To close an endpoint takes down its links for those at the other ends. -/
theorem Sound.parting_close (h : n.Sound) (hc : c ≠ a) (r : Peer) :
    Parting n (n.close a) c r "endpoint closed" := by
  have hendpoint : (n.close a).endpoint? c = (n.severAll a "endpoint closed").endpoint? c :=
    (endpoint?_unbind ..).trans (if_neg (Ne.symm hc))
  refine (h.parting_severAll a "endpoint closed" c r).trans (.spared ?_ (mail_congr ?_ r))
  · rw [wire?, link?, hendpoint, wire?, link?]
  · rw [inbox, hendpoint, inbox]

/-- Nothing is left at an endpoint that is closed. -/
theorem Sound.closed (h : n.Sound) (c : Address) (r : Peer) :
    (n.close c).wire? c r = none ∧ (n.close c).mail c r = [] := by
  have hgone : (n.close c).isBound c = false := by rw [(h.close c).2.2, if_pos rfl]
  exact ⟨wire?_of_not_bound hgone r, mail_of_not_bound hgone r⟩

/-! ### One act -/

/-- The events that an act polls at an address. -/
def polledBy (n : Network) (x : Act) (c : Address) : List TransportEvent :=
  if x = .poll c then (n.poll c).1.toList else []

/-- What an act comes to at one end, and what it polls there about its peer. -/
inductive Happens (n : Network) (x : Act) (c : Address) (r : Peer) : List TransportEvent → Prop
  | nothing (wire : (n.act x).wire? c r = n.wire? c r) (mail : (n.act x).mail c r = n.mail c r) : Happens n x c r []
  | heard {e : TransportEvent} (wire : (n.act x).wire? c r = n.wire? c r)
      (mail : n.mail c r = e :: (n.act x).mail c r) : Happens n x c r [e]
  | packet {b : Address} {q : Peer} {bytes : Bytes} (connected : n.wire? c r = some ⟨b, q, .connected⟩)
      (wire : (n.act x).wire? c r = n.wire? c r) (mail : Inserts (.data r bytes) (n.mail c r) ((n.act x).mail c r)) :
      Happens n x c r []
  | joined {b : Address} {q : Peer} (before : n.wire? c r = some ⟨b, q, .awaitingApproval⟩)
      (after : (n.act x).wire? c r = some ⟨b, q, .connected⟩)
      (mail : Inserts (.connected r "") (n.mail c r) ((n.act x).mail c r)) : Happens n x c r []
  | parted {w : Wire} (before : n.wire? c r = some w) (after : (n.act x).wire? c r = none)
      (mail : Inserts (.disconnected r x.reason) (n.mail c r) ((n.act x).mail c r)) : Happens n x c r []
  | closed (act : x = .close c) (wire : (n.act x).wire? c r = none) (mail : (n.act x).mail c r = []) : Happens n x c r []

theorem Happens.of_quiet (hq : Quiet n (n.act x)) : Happens n x c r [] :=
  .nothing (hq.wire? c r) (mail_congr (hq.inbox c) r)

theorem Happens.of_parting (h : Parting n (n.act x) c r x.reason) : Happens n x c r [] := by
  cases h with
  | spared wire mail => exact .nothing wire mail
  | parted before after mail => exact .parted before after mail

theorem Happens.of_update {f : Endpoint → Endpoint} (hact : n.act x = n.update a f)
    (hf : ∀ e, (f e).inbox = e.inbox ∧ (f e).links = e.links) : Happens n x c r [] := by
  refine .nothing ?_ (mail_congr ?_ r)
  · rw [hact]
    exact wire?_update (fun e => (hf e).2) n a c r
  · rw [hact]
    exact inbox_update (fun e => (hf e).1) n a c

/-- A new endpoint has neither parcels nor links. -/
theorem Happens.of_insert (hfree : n.isBound a = false)
    (hact : (n.act x).endpoints = n.endpoints.insert a (Endpoint.fresh n.clock)) : Happens n x c r [] := by
  have hget : (n.act x).endpoint? c = if a = c then some (Endpoint.fresh n.clock) else n.endpoint? c := by
    rw [endpoint?, hact]
    exact Assoc.get?_insert ..
  rw [isBound_eq, Option.isSome_eq_false_iff, Option.isNone_iff_eq_none] at hfree
  refine .nothing ?_ (mail_congr ?_ r)
  · rw [wire?, link?, hget, wire?, link?]
    split
    · rename_i hac
      subst hac
      rw [hfree]
      rfl
    · rfl
  · rw [inbox, hget, inbox]
    split
    · rename_i hac
      subst hac
      rw [hfree]
      rfl
    · rfl

theorem Sound.happens_approve (h : n.Sound) (a : Address) (p : Peer) : Happens n (.approve a p) c r [] := by
  cases hw : n.wire? a p with
  | none =>
    refine .of_quiet ?_
    rw [Network.act, approve_none hw]
    exact .refl n
  | some w =>
    obtain ⟨b, q, st⟩ := w
    cases st with
    | connected =>
      refine .of_quiet ?_
      rw [Network.act, approve_connected hw]
      exact .refl n
    | awaitingApproval =>
      obtain ⟨l, hl, hwire⟩ := link?_of_wire? hw
      obtain ⟨rfl, rfl, hst⟩ := Wire.mk.inj hwire
      obtain ⟨l', hl', happrove⟩ := h.approve_eq hl hst
      let n₁ := n.join a p l l.remote l.remotePeer l'
      have hact : n.act (.approve a p) = n₁.tellBoth a (.connected p "") l.remote (.connected l.remotePeer "") := by
        rw [Network.act, happrove]
        rfl
      have hjoined : n₁.Sound := h.join hw hl hl'
      have hne := h.apart hw
      have hfar := h.paired hw
      have hbound : ∀ d, n₁.isBound d = n.isBound d := fun d => by simp [n₁, Network.join]
      have hmail : ∀ d s, n₁.mail d s = n.mail d s := fun d => mail_congr (by simp [n₁, Network.join])
      have hafter : (n.act (.approve a p)).wire? c r = n₁.wire? c r := by
        rw [hact, tellBoth, wire?_post, wire?_post]
      have hends := wire?_join hl hl' c r
      by_cases hnear : (a, p) = (c, r)
      · obtain ⟨rfl, rfl⟩ := Prod.mk.inj hnear
        refine .joined hw (hafter.trans (hends.trans ((if_pos (Or.inr ⟨rfl, rfl⟩)).trans ?_))) ?_
        · rw [hw]
          rfl
        · rw [hact, ← hmail]
          exact hjoined.inserts_near ((hbound a).trans (isBound_of_wire? hw)) hne (.connected p "") _
      · by_cases hother : (l.remote, l.remotePeer) = (c, r)
        · obtain ⟨rfl, rfl⟩ := Prod.mk.inj hother
          refine .joined hfar (hafter.trans (hends.trans ((if_pos (Or.inl ⟨rfl, rfl⟩)).trans ?_))) ?_
          · rw [hfar]
            rfl
          · rw [hact, ← hmail]
            exact hjoined.inserts_far ((hbound _).trans (isBound_of_wire? hfar)) hne _ (.connected l.remotePeer "")
        · refine .nothing (hafter.trans (hends.trans (if_neg ?_))) ?_
          · rintro (⟨hb, hq⟩ | ⟨ha, hp⟩)
            · exact hother (Prod.ext hb hq)
            · exact hnear (Prod.ext ha hp)
          · rw [hact, mail_tellBoth_of_ne hnear hother, hmail]

theorem Sound.happens_send (h : n.Sound) (a : Address) (p : Peer) (bytes : Bytes) (d : Delivery) :
    Happens n (.send a p bytes d) c r [] := by
  rcases n.send_cases a p bytes d with hq | ⟨b, q, hw, hposts⟩
  · exact .of_quiet hq
  · have hwire := hposts.wire? c r
    have hfar := h.paired hw
    obtain ⟨release, hrelease, hq⟩ := hposts
    by_cases hend : (b, q) = (c, r)
    · obtain ⟨rfl, rfl⟩ := Prod.mk.inj hend
      have hput := h.inserts_post (isBound_of_wire? hfar) hrelease (.data q bytes)
      rw [← mail_congr (hq.inbox b)] at hput
      exact .packet hfar hwire hput
    · refine .nothing hwire ?_
      rw [Network.act, mail_congr (hq.inbox c), mail_post_of_ne hend]

/-- An older end does not notice that a link is asked for. -/
theorem happens_connect (hr : r.val < n.nextPeer) (a b : Address) :
    Happens n (.connect a b) c r [] := by
  have hquiet : n.act (.connect a b) = n → Happens n (.connect a b) c r [] := fun heq => .of_quiet (by
    rw [heq]
    exact .refl n)
  by_cases hbound : n.isBound a = true
  · have hact : n.act (.connect a b) = (n.connect a b).2 := if_pos hbound
    rcases n.connect_cases a b with ⟨e, heq⟩ | ⟨hlistens, hne⟩
    · exact hquiet (by rw [hact, heq])
    · rw [connect_eq_lay hlistens hne] at hact
      have hold : ∀ k, n.nextPeer ≤ k → (⟨k⟩ : Peer) ≠ r := by
        rintro k hk rfl
        exact absurd hr (Nat.not_lt.mpr hk)
      refine .nothing ?_ ?_
      · rw [hact, wire?_post, wire?_lay hbound (isBound_of_listens hlistens), if_neg fun heq => hold _ (Nat.le_succ _) heq.2,
          if_neg fun heq => hold _ (Nat.le_refl _) heq.2]
      · have hnew : (b, (⟨n.nextPeer + 1⟩ : Peer)) ≠ (c, r) := fun heq => hold _ (Nat.le_succ _) (Prod.mk.inj heq).2
        rw [hact, mail_post_of_ne hnew]
        exact mail_congr (inbox_lay n a b c) r
  · exact hquiet (if_neg hbound)

theorem Sound.happens_poll (h : n.Sound) (a : Address) :
    Happens n (.poll a) c r ((n.polledBy (.poll a) c).filter (·.peer = r)) := by
  rcases hpoll : n.poll a with ⟨_ | e, n'⟩
  · have hact : n.act (.poll a) = n := by rw [Network.act, hpoll, poll_none hpoll]
    have hnone : n.polledBy (.poll a) c = [] := by
      unfold polledBy
      split
      · rename_i hac
        obtain rfl := Act.poll.inj hac
        rw [hpoll]
        rfl
      · rfl
    rw [hnone]
    exact .of_quiet (hact.symm ▸ .refl n)
  · have hact : n.act (.poll a) = n' := by rw [Network.act, hpoll]
    have hwire : (n.act (.poll a)).wire? c r = n.wire? c r := by
      rw [hact]
      exact (h.poll hpoll).2.2.1 c r
    obtain ⟨-, ⟨y, rfl, hinbox⟩, hsame⟩ := poll_takes hpoll
    by_cases hac : a = c
    · subst hac
      have hpolled : n.polledBy (.poll a) a = [y.event] := by rw [polledBy, if_pos rfl, hpoll]; rfl
      have hmail : n.mail a r = if y.event.peer = r then y.event :: n'.mail a r else n'.mail a r := by
        rw [mail, hinbox, mailFor_cons, mail]
      by_cases hpeer : y.event.peer = r
      · rw [hpolled, List.filter_cons_of_pos (by simp [hpeer]), List.filter_nil]
        rw [if_pos hpeer, ← hact] at hmail
        exact .heard hwire hmail
      · rw [hpolled, List.filter_cons_of_neg (by simp [hpeer]), List.filter_nil]
        rw [if_neg hpeer, ← hact] at hmail
        exact .nothing hwire hmail.symm
    · have hpolled : n.polledBy (.poll a) c = [] := if_neg fun heq => hac (Act.poll.inj heq)
      rw [hpolled]
      refine .nothing hwire (mail_congr ?_ r)
      rw [hact]
      exact hsame (Ne.symm hac)

/-- Whatever is done, this is all that comes to an end whose number was given out before. -/
theorem Sound.happens (h : n.Sound) (hr : r.val < n.nextPeer) (x : Act) (c : Address) :
    Happens n x c r ((n.polledBy x c).filter (·.peer = r)) := by
  cases x with
  | bind addr =>
    by_cases hbound : n.isBound addr = true
    · exact .of_quiet (x := .bind addr) (by rw [Network.act, Network.bind, if_pos hbound]; exact .refl n)
    · refine .of_insert (x := .bind addr) (eq_false_of_ne_true hbound) ?_
      rw [Network.act, Network.bind, if_neg hbound]
  | bindAny =>
    cases hbind : n.bindAny with
    | none => exact .of_quiet (x := .bindAny) (by rw [Network.act, hbind]; exact .refl n)
    | some s =>
      obtain ⟨port, hport, rfl⟩ := Option.map_eq_some_iff.mp hbind
      refine .of_insert (x := .bindAny) (freePort?_free hport) ?_
      rw [Network.act, hbind]
      rfl
  | start addr =>
    by_cases hbound : n.isBound addr = true
    · exact .of_update (x := .start addr) (f := fun e => { e with listening := true })
        (by rw [Network.act, Network.start, if_pos hbound]) fun _ => ⟨rfl, rfl⟩
    · exact .of_quiet (x := .start addr) (by rw [Network.act, Network.start, if_neg hbound]; exact .refl n)
  | shutdown addr reason => exact .of_parting (h.parting_shutdown addr reason c r)
  | connect addr remote => exact happens_connect hr addr remote
  | approve addr peer => exact h.happens_approve addr peer
  | disconnect addr peer reason => exact .of_parting (h.parting_sever addr peer reason c r)
  | send addr peer bytes d => exact h.happens_send addr peer bytes d
  | poll addr => exact h.happens_poll addr
  | setImpairment addr i =>
    exact .of_update (x := .setImpairment addr i) (f := fun e => { e with impairment := i }) rfl fun _ => ⟨rfl, rfl⟩
  | setRateLimit addr limit =>
    exact .of_update (x := .setRateLimit addr limit) (f := fun e => { e with rateLimit := limit }) rfl fun _ => ⟨rfl, rfl⟩
  | close addr =>
    by_cases hac : c = addr
    · subst hac
      obtain ⟨hwire, hmail⟩ := h.closed c r
      exact .closed rfl hwire hmail
    · exact .of_parting (x := .close addr) (h.parting_close hac r)
  | elapse time => exact .nothing rfl rfl

end Network
end StateSync
