import StateSync.Manager.Open
import StateSync.Proofs.Transport.Links

/-! How endpoints and links come into being: binding an address, opening the transports of a server, and asking a
    listener for a link. -/

namespace StateSync.Network
variable {n n' n'' : Network} {a b : Address} {p q : Peer} {hs : List Address}

/-- Endpoints come into being at addresses that were free. No other end notices. -/
structure Grown (n n' : Network) (hs : List Address) : Prop where
  sound : n'.Sound
  isBound : ∀ a, n'.isBound a = true ↔ n.isBound a = true ∨ a ∈ hs
  free : ∀ a ∈ hs, n.isBound a = false
  listens : ∀ {a}, n'.listens a = true → n.listens a = true ∨ a ∈ hs
  wire? : ∀ a p, n'.wire? a p = n.wire? a p
  notes : ∀ a p, n'.notes a p = n.notes a p

namespace Grown

theorem refl (h : n.Sound) : Grown n n [] :=
  ⟨h, fun _ => by simp, fun _ ha => (nomatch ha), Or.inl, fun _ _ => rfl, fun _ _ => rfl⟩

theorem trans {ks : List Address} (h : Grown n n' hs) (h' : Grown n' n'' ks) : Grown n n'' (hs ++ ks) where
  sound := h'.sound
  isBound a := by rw [h'.isBound, h.isBound, List.mem_append, or_assoc]
  free a ha := by
    rcases List.mem_append.mp ha with ha | ha
    · exact h.free a ha
    · exact eq_false_of_ne_true fun hb => (nomatch (h'.free a ha).symm.trans ((h.isBound a).mpr (Or.inl hb)))
  listens hl := by
    rw [List.mem_append, ← or_assoc]
    exact (h'.listens hl).imp_left h.listens
  wire? a p := (h'.wire? a p).trans (h.wire? a p)
  notes a p := (h'.notes a p).trans (h.notes a p)

theorem quiet (h : Grown n n' hs) (hq : Quiet n' n'') : Grown n n'' hs where
  sound := h.sound.quiet hq
  isBound a := by rw [hq.isBound, h.isBound]
  free := h.free
  listens hl := h.listens (hq.listens _ ▸ hl)
  wire? a p := (hq.wire? a p).trans (h.wire? a p)
  notes a p := (hq.notes a p).trans (h.notes a p)

/-- Endpoints that have come and gone leave nothing behind. -/
theorem cut (h : Grown n n' hs) (hcut : Cut n' n'') (hgone : ∀ a ∈ hs, n''.isBound a = false) : Cut n n'' where
  isBound {a} hb := by
    refine ((h.isBound a).mp (hcut.isBound hb)).resolve_right fun ha => ?_
    exact (nomatch (hgone a ha).symm.trans hb)
  listens {a} hl := by
    refine (h.listens (hcut.listens hl)).resolve_right fun ha => ?_
    exact (nomatch (hgone a ha).symm.trans (isBound_of_listens hl))
  kept hw := by
    rw [← h.wire?, ← h.notes]
    exact hcut.kept hw
  lost hb hw hnone := hcut.lost hb (h.wire? _ _ ▸ hw) hnone
  down hb hd := hcut.down hb (h.notes _ _ ▸ hd)

/-- Giving up what was opened restores what was bound. -/
theorem closeAll (h : Grown n n' hs) :
    let n'' := hs.foldl Network.close n'
    Cut n n'' ∧ n''.Sound ∧ ∀ a, n''.isBound a = n.isBound a := by
  obtain ⟨hcut, hsound, hbound⟩ := h.sound.closeAll hs
  refine ⟨h.cut hcut fun a ha => eq_false_of_ne_true fun hb => ((hbound a).mp hb).2 ha, hsound, fun a => ?_⟩
  rw [Bool.eq_iff_iff, hbound, h.isBound]
  refine ⟨fun hb => hb.1.resolve_right hb.2, fun hb => ⟨Or.inl hb, fun ha => ?_⟩⟩
  exact (nomatch (h.free a ha).symm.trans hb)

end Grown

/-! ### Binding -/

/-- A fresh endpoint has no links and no parcels, and does not listen. -/
theorem Sound.bound (h : n.Sound) (ha : n.isBound a = false) (hclock : n'.clock = n.clock)
    (hnext : n'.nextPeer = n.nextPeer) (he : n'.endpoints = n.endpoints.insert a (Endpoint.fresh n.clock)) :
    Grown n n' [a] ∧ ∀ b, n'.listens b = n.listens b := by
  have hnone : n.endpoint? a = none := by
    rw [isBound_eq] at ha
    exact Option.not_isSome_iff_eq_none.mp (by rw [ha]; exact Bool.false_ne_true)
  have hget : ∀ b, n'.endpoint? b = if a = b then some (Endpoint.fresh n.clock) else n.endpoint? b := by
    intro b
    rw [endpoint?, he]
    exact Assoc.get?_insert ..
  have hinbox : ∀ b, n'.inbox b = n.inbox b := by
    intro b
    rw [inbox, hget, inbox]
    split
    · rename_i hab
      subst hab
      rw [hnone]
      rfl
    · rfl
  have hlistens : ∀ b, n'.listens b = n.listens b := by
    intro b
    rw [Network.listens, hget, Network.listens]
    split
    · rename_i hab
      subst hab
      rw [hnone]
      rfl
    · rfl
  have hwire : ∀ b q, n'.wire? b q = n.wire? b q := by
    intro b q
    rw [Network.wire?, link?, hget, Network.wire?, link?]
    split
    · rename_i hab
      subst hab
      rw [hnone]
      rfl
    · rfl
  refine ⟨⟨h.of_same hclock hnext hinbox hwire, fun b => ?_, fun b hb => List.mem_singleton.mp hb ▸ ha,
    fun hl => Or.inl (hlistens _ ▸ hl), hwire, fun b q => ?_⟩, hlistens⟩
  · rw [isBound_eq, hget, isBound_eq, List.mem_singleton]
    by_cases hab : a = b
    · simp [hab]
    · have hba : ¬ b = a := fun h => hab h.symm
      simp [hab, hba]
  · rw [Network.notes, hinbox, Network.notes]

theorem Sound.bind (h : n.Sound) {k : Address} (hb : n.bind a = (.ok k, n')) :
    k = a ∧ Grown n n' [a] ∧ ∀ b, n'.listens b = n.listens b := by
  unfold Network.bind at hb
  split at hb
  · cases hb
  · rename_i hfree
    obtain ⟨hk, rfl⟩ := Prod.mk.inj hb
    exact ⟨(Except.ok.inj hk).symm, h.bound (eq_false_of_ne_true hfree) rfl rfl rfl⟩

theorem freePort?_free {port free : UInt16} {tries : Nat} (h : n.freePort? port tries = some free) :
    n.isBound (loopback free) = false := by
  induction tries generalizing port with
  | zero => cases h
  | succ tries ih =>
    rw [freePort?] at h
    split at h
    · exact ih h
    · rename_i hfree
      exact Option.some.inj h ▸ eq_false_of_ne_true hfree

theorem Sound.bindAny (h : n.Sound) (hb : n.bindAny = some (a, n')) :
    Grown n n' [a] ∧ ∀ b, n'.listens b = n.listens b := by
  obtain ⟨port, hport, heq⟩ := Option.map_eq_some_iff.mp hb
  obtain ⟨rfl, rfl⟩ := Prod.mk.inj heq
  exact h.bound (freePort?_free hport) rfl rfl rfl

/-! ### Transports of a manager -/

theorem tune_quiet (n : Network) (s : Settings) (a : Address) : Quiet n (Manager.tune n s a) := by
  have himpair : Quiet n (n.setImpairment a s.impairment) :=
    .update (f := fun e => { e with impairment := s.impairment }) (fun _ => ⟨rfl, rfl, rfl⟩) n a
  exact himpair.trans (.update (f := fun e => { e with rateLimit := s.rateLimit }) (fun _ => ⟨rfl, rfl, rfl⟩) _ a)

theorem tuneAll_quiet (n : Network) (settings : Settings) (hs : List Address) :
    Quiet n (hs.foldl (fun n a => Manager.tune n settings a) n) := by
  induction hs generalizing n with
  | nil => exact .refl n
  | cons a hs ih => exact (tune_quiet n settings a).trans (ih _)

theorem Grown.start (h : Grown n n' hs) (ha : a ∈ hs) :
    ∃ n'', n'.start a = (.ok (), n'') ∧ Grown n n'' hs := by
  let f : Endpoint → Endpoint := fun e => { e with listening := true }
  have hwire : ∀ b q, (n'.update a f).wire? b q = n'.wire? b q := wire?_update (f := f) (fun _ => rfl) n' a
  have hinbox : ∀ b, (n'.update a f).inbox b = n'.inbox b := inbox_update (f := f) (fun _ => rfl) n' a
  refine ⟨_, if_pos ((h.isBound a).mpr (Or.inr ha)), h.sound.update (f := f) (fun _ => ⟨rfl, rfl⟩) a, fun b => ?_,
    h.free, fun {b} hl => ?_, fun b q => (hwire b q).trans (h.wire? b q), fun b q => ?_⟩
  · rw [isBound_update, h.isBound]
  · rw [Network.listens, endpoint?_update] at hl
    split at hl
    · rename_i hab
      exact Or.inr (hab ▸ ha)
    · exact h.listens hl
  · rw [Network.notes, hinbox]
    exact h.notes b q

/-- Either all transports are opened, and listen, or everything is as before. -/
theorem Grown.openAll {opened : List Address} (hgrown : Grown n n' opened) (hnodup : opened.Nodup) (s : Settings)
    (addrs : List Address) :
    (∃ hs n'', Manager.openAll s n' opened addrs = (.ok hs, n'') ∧ Grown n n'' hs ∧ hs.Nodup) ∨
    ∃ e n'', Manager.openAll s n' opened addrs = (.error e, n'') ∧ Cut n n'' ∧ n''.Sound ∧
      ∀ a, n''.isBound a = n.isBound a := by
  induction addrs generalizing n' opened with
  | nil => exact Or.inl ⟨opened, n', rfl, hgrown, hnodup⟩
  | cons addr addrs ih =>
    rcases hbind : n'.bind addr with ⟨e | k, n₁⟩
    · refine Or.inr ⟨e, opened.foldl Network.close n₁, ?_, ?_⟩
      · simp only [Manager.openAll, Medium.bind, hbind]
        rfl
      · unfold Network.bind at hbind
        split at hbind
        · obtain ⟨-, rfl⟩ := Prod.mk.inj hbind
          exact hgrown.closeAll
        · cases hbind
    · obtain ⟨rfl, hone, -⟩ := hgrown.sound.bind hbind
      have hboth := (hgrown.trans hone).quiet (tune_quiet n₁ s k)
      obtain ⟨n₂, hstart, hopen⟩ := hboth.start (List.mem_append_right opened (List.mem_singleton_self k))
      have hnew : k ∉ opened := fun hk =>
        nomatch (hone.free k (List.mem_singleton_self k)).symm.trans ((hgrown.isBound k).mpr (Or.inr hk))
      have hnodup' : (opened ++ [k]).Nodup := by
        refine List.nodup_append.mpr ⟨hnodup, List.pairwise_singleton _ _, fun x hx y hy => ?_⟩
        rintro rfl
        exact hnew (List.mem_singleton.mp hy ▸ hx)
      have hnext : Manager.openAll s n' opened (k :: addrs) = Manager.openAll s n₂ (opened ++ [k]) addrs := by
        have hstart' : Medium.start (Manager.tune n₁ s k) k = (.ok (), n₂) := hstart
        simp only [Manager.openAll, Medium.bind, hbind, hstart']
      rw [hnext]
      exact ih hopen hnodup'

/-! ### Asking for a link -/

theorem connect_cases (n : Network) (a b : Address) :
    (∃ e, n.connect a b = (.error e, n)) ∨ (n.listens b = true ∧ b ≠ a) := by
  unfold Network.connect
  split
  · exact Or.inl ⟨_, rfl⟩
  · rename_i hcond
    simp only [Bool.or_eq_true, Bool.not_eq_true', decide_eq_true_eq, not_or, Bool.not_eq_false] at hcond
    exact Or.inr hcond

/-- A network with a new link from an end at `a` to one at `b`, which asks for approval. -/
def lay (n : Network) (a b : Address) : Network :=
  let n₁ := { n with nextPeer := n.nextPeer + 2 }.setLink a ⟨n.nextPeer⟩
    ⟨b, ⟨n.nextPeer + 1⟩, .awaitingApproval, n.clock⟩
  n₁.setLink b ⟨n.nextPeer + 1⟩ ⟨a, ⟨n.nextPeer⟩, .awaitingApproval, n.clock⟩

/-- A listener is asked over a new link. -/
theorem connect_eq_lay (hl : n.listens b = true) (hne : b ≠ a) : n.connect a b =
    (.ok ⟨n.nextPeer⟩, (n.lay a b).post b n.clock (.approvalRequest ⟨n.nextPeer + 1⟩)) := by
  unfold connect
  rw [if_neg]
  · rfl
  · simp only [Bool.or_eq_true, Bool.not_eq_true', decide_eq_true_eq, not_or, Bool.not_eq_false]
    exact ⟨hl, hne⟩

theorem wire?_lay (ha : n.isBound a = true) (hb : n.isBound b = true) (c : Address) (r : Peer) : (n.lay a b).wire? c r =
    if b = c ∧ (⟨n.nextPeer + 1⟩ : Peer) = r then some ⟨a, ⟨n.nextPeer⟩, .awaitingApproval⟩
    else if a = c ∧ (⟨n.nextPeer⟩ : Peer) = r then some ⟨b, ⟨n.nextPeer + 1⟩, .awaitingApproval⟩ else n.wire? c r := by
  have ha' : { n with nextPeer := n.nextPeer + 2 }.isBound a = true := ha
  have hb' : { n with nextPeer := n.nextPeer + 2 }.isBound b = true := hb
  simp only [lay, wire?_setLink, isBound_setLink, ha', hb', and_true]
  rfl

theorem isBound_lay (n : Network) (a b c : Address) : (n.lay a b).isBound c = n.isBound c := by
  simp only [lay, isBound_setLink]
  rfl

theorem listens_lay (n : Network) (a b c : Address) : (n.lay a b).listens c = n.listens c := by
  simp only [lay, listens_setLink]
  rfl

theorem inbox_lay (n : Network) (a b c : Address) : (n.lay a b).inbox c = n.inbox c := by
  simp only [lay, inbox_setLink]
  rfl

theorem Sound.wire?_eq_none (h : n.Sound) (hp : n.nextPeer ≤ p.val) (a : Address) : n.wire? a p = none := by
  cases hw : n.wire? a p with
  | none => rfl
  | some w => exact absurd (h.fresh hw) (Nat.not_lt.mpr hp)

/-- The ends of a new link agree, and older links have older ends. -/
theorem Sound.lay (h : n.Sound) (ha : n.isBound a = true) (hb : n.isBound b = true) (hne : b ≠ a) :
    (n.lay a b).Sound := by
  have hnear : (n.lay a b).wire? a ⟨n.nextPeer⟩ = some ⟨b, ⟨n.nextPeer + 1⟩, .awaitingApproval⟩ := by
    rw [wire?_lay ha hb, if_neg fun heq => hne heq.1, if_pos ⟨rfl, rfl⟩]
  have hfar : (n.lay a b).wire? b ⟨n.nextPeer + 1⟩ = some ⟨a, ⟨n.nextPeer⟩, .awaitingApproval⟩ := by
    rw [wire?_lay ha hb, if_pos ⟨rfl, rfl⟩]
  have hold : ∀ {c r w}, n.wire? c r = some w → (n.lay a b).wire? c r = some w := by
    intro c r w hw
    have hlt := h.fresh hw
    rw [wire?_lay ha hb, if_neg, if_neg]
    · exact hw
    · rintro ⟨-, rfl⟩
      exact Nat.lt_irrefl _ hlt
    · rintro ⟨-, rfl⟩
      exact Nat.lt_irrefl _ (Nat.lt_of_succ_lt hlt)
  have hcases : ∀ {c r w}, (n.lay a b).wire? c r = some w →
      (c = b ∧ r = ⟨n.nextPeer + 1⟩ ∧ w = ⟨a, ⟨n.nextPeer⟩, .awaitingApproval⟩) ∨
        (c = a ∧ r = ⟨n.nextPeer⟩ ∧ w = ⟨b, ⟨n.nextPeer + 1⟩, .awaitingApproval⟩) ∨ n.wire? c r = some w := by
    intro c r w hw
    rw [wire?_lay ha hb] at hw
    split at hw
    · rename_i heq
      exact Or.inl ⟨heq.1.symm, heq.2.symm, (Option.some.inj hw).symm⟩
    · split at hw
      · rename_i heq
        exact Or.inr (Or.inl ⟨heq.1.symm, heq.2.symm, (Option.some.inj hw).symm⟩)
      · exact Or.inr (Or.inr hw)
  have hnext : (n.lay a b).nextPeer = n.nextPeer + 2 := rfl
  refine h.relink rfl (Nat.le_add_right _ 2) (inbox_lay n a b) (fun {c r d s st} hw => ?_) fun {c r w} hw => ?_
  · rcases hcases hw with ⟨rfl, rfl, hw'⟩ | ⟨rfl, rfl, hw'⟩ | hw'
    · obtain ⟨rfl, rfl, rfl⟩ := Wire.mk.inj hw'
      exact hnear
    · obtain ⟨rfl, rfl, rfl⟩ := Wire.mk.inj hw'
      exact hfar
    · exact hold (h.paired hw')
  · rcases hcases hw with ⟨rfl, rfl, rfl⟩ | ⟨rfl, rfl, rfl⟩ | hw'
    · rw [hnext, h.notes_eq_nil (Nat.le_succ _)]
      exact ⟨hne.symm, Nat.lt_succ_self _, List.not_mem_nil⟩
    · rw [hnext, h.notes_eq_nil (Nat.le_refl _)]
      exact ⟨hne, Nat.lt_succ_of_lt (Nat.lt_succ_self _), List.not_mem_nil⟩
    · exact ⟨h.apart hw', hnext ▸ Nat.lt_add_right 2 (h.fresh hw'), h.not_down hw'⟩

/-- A listener has been asked for a link, whose two ends are new. -/
structure Asked (n n' : Network) (a : Address) (p : Peer) (b : Address) (q : Peer) : Prop where
  sound : n'.Sound
  alike : Alike n n' (fun c r => (c = a ∧ r = p) ∨ (c = b ∧ r = q))
  listens : n.listens b = true
  wire : n'.wire? a p = some ⟨b, q, .awaitingApproval⟩
  idle : n'.notes a p = []
  asks : n'.notes b q = [.asks]
  fresh : n.notes b q = [] ∧ n.wire? b q = none
  new : n.nextPeer ≤ p.val

theorem Sound.connect (h : n.Sound) (ha : n.isBound a = true) (hl : n.listens b = true) (hne : b ≠ a) :
    ∃ p n' q, n.connect a b = (.ok p, n') ∧ Asked n n' a p b q := by
  have hb := isBound_of_listens hl
  let n' := (n.lay a b).post b n.clock (.approvalRequest ⟨n.nextPeer + 1⟩)
  have hconnect : n.connect a b = (.ok ⟨n.nextPeer⟩, n') := connect_eq_lay hl hne
  have hwire : ∀ c r, n'.wire? c r = (n.lay a b).wire? c r := fun _ _ => wire?_post ..
  have hnotes : ∀ c r, (n.lay a b).notes c r = n.notes c r := by
    intro c r
    rw [notes, inbox_lay, notes]
  have hnil : n.notes b ⟨n.nextPeer + 1⟩ = [] := h.notes_eq_nil (Nat.le_succ _) b
  have halike : Alike n n' (fun c r => (c = a ∧ r = ⟨n.nextPeer⟩) ∨ (c = b ∧ r = ⟨n.nextPeer + 1⟩)) := by
    refine ⟨fun c => ?_, fun c => ?_, fun {c r} hcr => ?_, fun {c r} hcr => ?_⟩
    · rw [isBound_post, isBound_lay]
    · rw [listens_post, listens_lay]
    · rw [hwire, wire?_lay ha hb, if_neg fun heq => hcr (Or.inr ⟨heq.1.symm, heq.2.symm⟩),
        if_neg fun heq => hcr (Or.inl ⟨heq.1.symm, heq.2.symm⟩)]
    · rw [notes_post_of_ne fun heq => hcr (Or.inr ((Prod.mk.inj heq).imp Eq.symm Eq.symm)), hnotes]
  refine ⟨_, n', ⟨n.nextPeer + 1⟩, hconnect, ⟨?_, halike, hl, ?_, ?_, ?_, ⟨?_, ?_⟩, Nat.le_refl _⟩⟩
  · exact (h.lay ha hb hne).post (Nat.lt_succ_self _) (fun _ => Nat.le_refl _) fun hd => by cases hd
  · rw [hwire, wire?_lay ha hb, if_neg fun heq => hne heq.1, if_pos ⟨rfl, rfl⟩]
  · rw [notes_post_of_ne fun heq => hne (Prod.mk.inj heq).1, hnotes, h.notes_eq_nil (Nat.le_refl _)]
  · have hperm : (n'.notes b ⟨n.nextPeer + 1⟩).Perm (.asks :: (n.lay a b).notes b ⟨n.nextPeer + 1⟩) :=
      notes_post_perm ((isBound_lay n a b b).trans hb) n.clock (.approvalRequest ⟨n.nextPeer + 1⟩)
    rw [hnotes, hnil] at hperm
    exact List.perm_singleton.mp hperm
  · exact hnil
  · exact h.wire?_eq_none (Nat.le_succ _) b

/-- A link that has none of the two new ends has been there before. -/
theorem Asked.not_end {n n' : Network} {c d : Address} {r s : Peer} {st : LinkState} (h : Asked n n' a p b q)
    (hw : n'.wire? c r = some ⟨d, s, st⟩) (hc : ¬ ((c = a ∧ r = p) ∨ (c = b ∧ r = q))) :
    ¬ ((d = a ∧ s = p) ∨ (d = b ∧ s = q)) := by
  have hback := h.sound.paired hw
  rintro (⟨rfl, rfl⟩ | ⟨rfl, rfl⟩)
  · obtain ⟨rfl, rfl, -⟩ := wire_inj hback h.wire
    exact hc (Or.inr ⟨rfl, rfl⟩)
  · obtain ⟨rfl, rfl, -⟩ := wire_inj hback (h.sound.paired h.wire)
    exact hc (Or.inl ⟨rfl, rfl⟩)

end StateSync.Network
