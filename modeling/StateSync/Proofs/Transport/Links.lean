import StateSync.Proofs.Transport.Sound

/-! How links come and go: opening, approval, and taking down one link, all links of an endpoint, and the endpoint
    itself. -/

namespace StateSync.Network
variable {n n' : Network} {a b c : Address} {p q r : Peer} {w : Wire} {st : LinkState}

/-- A change of links alone, after which the ends agree again. -/
theorem Sound.relink (h : n.Sound) (hclock : n'.clock = n.clock) (hnext : n.nextPeer ≤ n'.nextPeer)
    (hinbox : ∀ a, n'.inbox a = n.inbox a)
    (hpaired : ∀ {a p b q st}, n'.wire? a p = some ⟨b, q, st⟩ → n'.wire? b q = some ⟨a, p, st⟩)
    (hnew : ∀ {a p w}, n'.wire? a p = some w → w.remote ≠ a ∧ p.val < n'.nextPeer ∧ .down ∉ n.notes a p) :
    n'.Sound where
  paired := hpaired
  apart hw := (hnew hw).1
  fresh hw := (hnew hw).2.1
  mailed hx := Nat.lt_of_lt_of_le (h.mailed (hinbox _ ▸ hx)) hnext
  sorted a := hinbox a ▸ h.sorted a
  prompt hx hs := hclock ▸ h.prompt (hinbox _ ▸ hx) hs
  severed {a p} hd := by
    cases hw : n'.wire? a p with
    | none => rfl
    | some w =>
      rw [notes, hinbox] at hd
      exact absurd hd (hnew hw).2.2

/-! ### Taking down a link -/

/-- A link without its two ends. -/
def unlink (n : Network) (a : Address) (p : Peer) (b : Address) (q : Peer) : Network := (n.dropLink a p).dropLink b q

theorem wire?_unlink (n : Network) (a : Address) (p : Peer) (b : Address) (q : Peer) (c : Address) (r : Peer) :
    (n.unlink a p b q).wire? c r = if (b = c ∧ q = r) ∨ (a = c ∧ p = r) then none else n.wire? c r := by
  rw [unlink, wire?_dropLink, wire?_dropLink]
  by_cases hb : b = c ∧ q = r
  · rw [if_pos hb, if_pos (Or.inl hb)]
  · rw [if_neg hb]
    by_cases ha : a = c ∧ p = r
    · rw [if_pos ha, if_pos (Or.inr ha)]
    · rw [if_neg ha, if_neg (not_or.mpr ⟨hb, ha⟩)]

theorem inbox_unlink (n : Network) (a : Address) (p : Peer) (b : Address) (q : Peer) (c : Address) :
    (n.unlink a p b q).inbox c = n.inbox c := by
  rw [unlink, inbox_dropLink, inbox_dropLink]

theorem Sound.unlink (h : n.Sound) (hw : n.wire? a p = some ⟨b, q, st⟩) : (n.unlink a p b q).Sound := by
  have hold : ∀ {c r w}, (n.unlink a p b q).wire? c r = some w →
      n.wire? c r = some w ∧ ¬ ((b = c ∧ q = r) ∨ (a = c ∧ p = r)) := by
    intro c r w hc
    rw [wire?_unlink] at hc
    split at hc
    · cases hc
    · rename_i hne
      exact ⟨hc, hne⟩
  refine h.relink rfl (Nat.le_refl _) (inbox_unlink n a p b q) (fun {c r d s st'} hc => ?_)
    (fun hc => ?_)
  · obtain ⟨hc, hne⟩ := hold hc
    have hback := h.paired hc
    rw [wire?_unlink, if_neg ?_]
    · exact hback
    · -- The other end of a link that is kept is kept.
      rintro (⟨rfl, rfl⟩ | ⟨rfl, rfl⟩)
      · obtain ⟨rfl, rfl, -⟩ := wire_inj hback (h.paired hw)
        exact hne (Or.inr ⟨rfl, rfl⟩)
      · obtain ⟨rfl, rfl, -⟩ := wire_inj hback hw
        exact hne (Or.inl ⟨rfl, rfl⟩)
  · obtain ⟨hc, -⟩ := hold hc
    exact ⟨h.apart hc, h.fresh hc, h.not_down hc⟩

/-- A link without its two ends, which are told of it. -/
def unlinkTelling (n : Network) (a : Address) (p : Peer) (b : Address) (q : Peer) (reason : String) : Network :=
  ((n.unlink a p b q).post a n.clock (.disconnected p reason)).post b n.clock (.disconnected q reason)

section
variable {reason : String}

theorem wire?_unlinkTelling (n : Network) (a : Address) (p : Peer) (b : Address) (q : Peer) (reason : String)
    (c : Address) (r : Peer) : (n.unlinkTelling a p b q reason).wire? c r =
      if (b = c ∧ q = r) ∨ (a = c ∧ p = r) then none else n.wire? c r := by
  rw [unlinkTelling, wire?_post, wire?_post, wire?_unlink]

theorem isBound_unlinkTelling (n : Network) (a : Address) (p : Peer) (b : Address) (q : Peer) (reason : String)
    (c : Address) : (n.unlinkTelling a p b q reason).isBound c = n.isBound c := by
  rw [unlinkTelling, isBound_post, isBound_post, Network.unlink, isBound_dropLink, isBound_dropLink]

theorem listens_unlinkTelling (n : Network) (a : Address) (p : Peer) (b : Address) (q : Peer) (reason : String)
    (c : Address) : (n.unlinkTelling a p b q reason).listens c = n.listens c := by
  rw [unlinkTelling, listens_post, listens_post, Network.unlink, listens_dropLink, listens_dropLink]

theorem notes_unlinkTelling (ha : ¬ (c = a ∧ r = p)) (hb : ¬ (c = b ∧ r = q)) :
    (n.unlinkTelling a p b q reason).notes c r = n.notes c r := by
  have ha' : (a, p) ≠ (c, r) := fun h => ha ((Prod.mk.inj h).imp Eq.symm Eq.symm)
  have hb' : (b, q) ≠ (c, r) := fun h => hb ((Prod.mk.inj h).imp Eq.symm Eq.symm)
  rw [unlinkTelling, notes_post_of_ne hb', notes_post_of_ne ha', notes, inbox_unlink, notes]

theorem mem_notes_unlinkTelling {note : Note} (h : note ∈ n.notes c r) :
    note ∈ (n.unlinkTelling a p b q reason).notes c r := by
  refine mem_notes_post (mem_notes_post ?_)
  rw [notes, inbox_unlink]
  exact h

theorem down_mem_near (ha : n.isBound a = true) : .down ∈ (n.unlinkTelling a p b q reason).notes a p := by
  refine mem_notes_post ((notes_post_perm ?_ n.clock (.disconnected p reason)).mem_iff.mpr List.mem_cons_self)
  rw [Network.unlink, isBound_dropLink, isBound_dropLink]
  exact ha

theorem down_mem_far (hb : n.isBound b = true) : .down ∈ (n.unlinkTelling a p b q reason).notes b q := by
  refine (notes_post_perm ?_ n.clock (.disconnected q reason)).mem_iff.mpr List.mem_cons_self
  rw [isBound_post, Network.unlink, isBound_dropLink, isBound_dropLink]
  exact hb

theorem Sound.unlinkTelling (h : n.Sound) (hw : n.wire? a p = some ⟨b, q, st⟩) (reason : String) :
    (n.unlinkTelling a p b q reason).Sound := by
  refine ((h.unlink hw).post (h.fresh hw) (fun _ => Nat.le_refl _) fun _ => ?_).post (h.fresh (h.paired hw))
    (fun _ => Nat.le_refl _) fun _ => ?_
  · exact (wire?_unlink ..).trans (if_pos (Or.inr ⟨rfl, rfl⟩))
  · rw [wire?_post]
    exact (wire?_unlink ..).trans (if_pos (Or.inl ⟨rfl, rfl⟩))

theorem Sound.sever_eq (h : n.Sound) (hw : n.wire? a p = some ⟨b, q, st⟩) (reason : String) :
    Quiet (n.unlinkTelling a p b q reason) (n.sever a p reason) := by
  obtain ⟨l, hl, hwire⟩ := link?_of_wire? hw
  obtain ⟨rfl, rfl, -⟩ := Wire.mk.inj hwire
  have hne := h.apart hw
  obtain ⟨l', hl', -⟩ := link?_of_wire? (h.paired hw)
  have hfar : ((n.dropLink a p).post a n.clock (.disconnected p reason)).link? l.remote l.remotePeer = some l' := by
    unfold Network.post
    rw [link?_update, link?_dropLink, if_neg fun heq => hne heq.1.symm]
    · exact hl'
    · exact fun _ => rfl
  have hsever : n.sever a p reason = (((n.dropLink a p).post a n.clock (.disconnected p reason)).dropLink l.remote
      l.remotePeer).post l.remote n.clock (.disconnected l.remotePeer reason) := by
    unfold Network.sever
    rw [hl]
    simp only [hfar, Option.isSome_some, if_true]
    rfl
  -- The far end is dropped after the near one was told, which makes no difference.
  have hswap : Quiet ((n.unlink a p l.remote l.remotePeer).post a n.clock (.disconnected p reason))
      (((n.dropLink a p).post a n.clock (.disconnected p reason)).dropLink l.remote l.remotePeer) := by
    refine ⟨rfl, rfl, fun c => ?_, fun c => ?_, fun c => ?_, fun c r => ?_⟩
    · simp [Network.unlink]
    · simp [Network.unlink]
    · simp [Network.unlink, inbox_post]
    · simp [Network.unlink, wire?_dropLink]
  rw [hsever]
  exact hswap.post _ _ _

theorem sever_none (hw : n.wire? a p = none) (reason : String) : n.sever a p reason = n := by
  have hl : n.link? a p = none := Option.map_eq_none_iff.mp hw
  rw [Network.sever, hl]

end

/-- What severing an end comes to. -/
structure Severs (n n' : Network) (a : Address) (p : Peer) : Prop extends Cut n n' where
  sound : n'.Sound
  alike : Alike n n' (AtLink n a p)
  near : n'.wire? a p = none
  far : ∀ {b q st}, n.wire? a p = some ⟨b, q, st⟩ → n'.wire? b q = none ∧ .down ∈ n'.notes b q

theorem Sound.severs (h : n.Sound) (a : Address) (p : Peer) (reason : String) :
    Severs n (n.sever a p reason) a p := by
  cases hw : n.wire? a p with
  | none =>
    rw [sever_none hw]
    exact ⟨.refl n, h, (Quiet.refl n).alike _, hw, fun h => (nomatch hw.symm.trans h)⟩
  | some w =>
    obtain ⟨b, q, st⟩ := w
    have hq := h.sever_eq hw reason
    have hfar := h.paired hw
    have hwire := wire?_unlinkTelling n a p b q reason
    have hother : ∀ {c r}, ¬ AtLink n a p c r → ¬ (c = a ∧ r = p) ∧ ¬ (c = b ∧ r = q) := by
      intro c r hne
      refine ⟨fun heq => hne (Or.inl heq), ?_⟩
      rintro ⟨rfl, rfl⟩
      exact hne (Or.inr ⟨st, hw⟩)
    have hcut : Cut n (n.unlinkTelling a p b q reason) := by
      refine ⟨fun {c} hc => isBound_unlinkTelling n a p b q reason c ▸ hc,
        fun {c} hc => listens_unlinkTelling n a p b q reason c ▸ hc, fun {c r w} hc => ?_, fun {c r w} _ hc hnone => ?_,
        fun _ hd => mem_notes_unlinkTelling hd⟩
      · rw [hwire] at hc
        split at hc
        · cases hc
        · rename_i hne
          refine ⟨hc, notes_unlinkTelling (fun heq => hne (Or.inr ?_)) fun heq => hne (Or.inl ?_)⟩
          · exact ⟨heq.1.symm, heq.2.symm⟩
          · exact ⟨heq.1.symm, heq.2.symm⟩
      · rw [hwire] at hnone
        split at hnone
        · rename_i hend
          rcases hend with ⟨rfl, rfl⟩ | ⟨rfl, rfl⟩
          · exact down_mem_far (isBound_of_wire? hc)
          · exact down_mem_near (isBound_of_wire? hc)
        · exact (nomatch hnone.symm.trans hc)
    have halike : Alike n (n.unlinkTelling a p b q reason) (AtLink n a p) := by
      refine ⟨isBound_unlinkTelling n a p b q reason, listens_unlinkTelling n a p b q reason,
        fun {c r} hne => ?_, fun {c r} hne => ?_⟩
      · obtain ⟨ha, hb⟩ := hother hne
        rw [hwire, if_neg]
        rintro (heq | heq)
        · exact hb ⟨heq.1.symm, heq.2.symm⟩
        · exact ha ⟨heq.1.symm, heq.2.symm⟩
      · obtain ⟨ha, hb⟩ := hother hne
        exact notes_unlinkTelling ha hb
    refine ⟨hcut.trans hq.cut, (h.unlinkTelling hw reason).quiet hq, halike.trans (hq.alike _), ?_, fun heq => ?_⟩
    · rw [hq.wire?, hwire, if_pos (Or.inr ⟨rfl, rfl⟩)]
    · obtain ⟨rfl, rfl, -⟩ := wire_inj hw heq
      rw [hq.wire?, hwire, if_pos (Or.inl ⟨rfl, rfl⟩), hq.notes]
      exact ⟨rfl, down_mem_far (isBound_of_wire? hfar)⟩

/-! ### Taking down an endpoint -/

theorem Sound.severs_foldl (h : n.Sound) (a : Address) (ps : List Peer) (reason : String) :
    let n' := ps.foldl (fun n p => n.sever a p reason) n
    Cut n n' ∧ n'.Sound ∧ (∀ b, n'.isBound b = n.isBound b) ∧ ∀ p ∈ ps, n'.wire? a p = none := by
  induction ps generalizing n with
  | nil => exact ⟨.refl n, h, fun _ => rfl, nofun⟩
  | cons p ps ih =>
    have hone := h.severs a p reason
    obtain ⟨hcut, hsound, hbound, hnone⟩ := ih hone.sound
    refine ⟨hone.toCut.trans hcut, hsound, fun b => (hbound b).trans (hone.alike.isBound b), fun q hq => ?_⟩
    rcases List.mem_cons.mp hq with rfl | hq
    · exact hcut.wire?_eq_none hone.near
    · exact hnone q hq

theorem Sound.severAll (h : n.Sound) (a : Address) (reason : String) :
    Cut n (n.severAll a reason) ∧ (n.severAll a reason).Sound ∧ (∀ b, (n.severAll a reason).isBound b = n.isBound b) ∧
      ∀ p, (n.severAll a reason).wire? a p = none := by
  unfold Network.severAll
  cases he : n.endpoint? a with
  | none =>
    have hb : n.isBound a = false := by rw [isBound_eq, he]; rfl
    exact ⟨.refl n, h, fun _ => rfl, wire?_of_not_bound hb⟩
  | some e =>
    obtain ⟨hcut, hsound, hbound, hnone⟩ := h.severs_foldl a e.links.keys reason
    refine ⟨hcut, hsound, hbound, fun p => ?_⟩
    by_cases hmem : p ∈ e.links.keys
    · exact hnone p hmem
    · -- A peer that had no link before has none now.
      refine Option.eq_none_iff_forall_ne_some.mpr fun w hw => ?_
      obtain ⟨l, hl, -⟩ := link?_of_wire? (hcut.kept hw).1
      rw [link?, he, Option.bind_some, Assoc.get?_eq_none.mpr hmem] at hl
      cases hl

/-- An address that is free again. -/
def unbind (n : Network) (a : Address) : Network := { n with endpoints := n.endpoints.erase a }

theorem endpoint?_unbind (n : Network) (a b : Address) :
    (n.unbind a).endpoint? b = if a = b then none else n.endpoint? b := Assoc.get?_erase ..

theorem isBound_unbind (n : Network) (a b : Address) :
    (n.unbind a).isBound b = if a = b then false else n.isBound b := by
  rw [isBound_eq, endpoint?_unbind, isBound_eq]
  split <;> rfl

theorem Sound.unbind (h : n.Sound) (ha : ∀ p, n.wire? a p = none) : Cut n (n.unbind a) ∧ (n.unbind a).Sound := by
  have hinbox : ∀ b, (n.unbind a).inbox b = if a = b then [] else n.inbox b := by
    intro b
    rw [inbox, endpoint?_unbind, inbox]
    split <;> rfl
  have hwire : ∀ b q, (n.unbind a).wire? b q = n.wire? b q := by
    intro b q
    rw [wire?, link?, endpoint?_unbind]
    split
    · rename_i hab
      subst hab
      exact (ha q).symm
    · rfl
  have hnotes : ∀ {b q}, a ≠ b → (n.unbind a).notes b q = n.notes b q := by
    intro b q hab
    rw [notes, hinbox, if_neg hab, notes]
  have hmem : ∀ {b x}, x ∈ (n.unbind a).inbox b → x ∈ n.inbox b := by
    intro b x hx
    rw [hinbox] at hx
    split at hx
    · cases hx
    · exact hx
  refine ⟨⟨fun {b} hb => ?_, fun {b} hl => ?_, fun {b q w} hw => ?_, fun {b q w} _ hw hnone => ?_,
    fun {b q} hb hd => ?_⟩, ⟨fun hw => ?_, fun hw => h.apart (hwire _ _ ▸ hw), fun hw => h.fresh (hwire _ _ ▸ hw),
      fun hx => h.mailed (hmem hx), fun b => ?_, fun hx hs => h.prompt (hmem hx) hs, fun {b q} hd => ?_⟩⟩
  · rw [isBound_unbind] at hb
    split at hb
    · cases hb
    · exact hb
  · rw [listens, endpoint?_unbind] at hl
    split at hl
    · cases hl
    · exact hl
  · rw [hwire] at hw
    refine ⟨hw, hnotes fun hab => ?_⟩
    subst hab
    cases (ha q).symm.trans hw
  · rw [hwire] at hnone
    cases hnone.symm.trans hw
  · rw [isBound_unbind] at hb
    split at hb
    · cases hb
    · rename_i hab
      rwa [hnotes hab]
  · rw [hwire] at hw ⊢
    exact h.paired hw
  · rw [hinbox]
    split
    · exact List.Pairwise.nil
    · exact h.sorted b
  · rw [hwire]
    obtain ⟨x, hx, hpeer, hnote⟩ := mem_notesFor.mp hd
    exact h.severed (mem_notesFor.mpr ⟨x, hmem hx, hpeer, hnote⟩)

theorem Sound.close (h : n.Sound) (a : Address) :
    Cut n (n.close a) ∧ (n.close a).Sound ∧ ∀ b, (n.close a).isBound b = if a = b then false else n.isBound b := by
  obtain ⟨hcut, hsound, hbound, hnone⟩ := h.severAll a "endpoint closed"
  obtain ⟨hcut', hsound'⟩ := hsound.unbind hnone
  refine ⟨hcut.trans hcut', hsound', fun b => ?_⟩
  rw [← hbound b]
  exact isBound_unbind ..

theorem Sound.closeAll (h : n.Sound) (hs : List Address) :
    let n' := hs.foldl Network.close n
    Cut n n' ∧ n'.Sound ∧ ∀ b, n'.isBound b = true ↔ n.isBound b = true ∧ b ∉ hs := by
  induction hs generalizing n with
  | nil => exact ⟨.refl n, h, fun b => by simp⟩
  | cons a hs ih =>
    obtain ⟨hcut, hsound, hbound⟩ := h.close a
    obtain ⟨hcut', hsound', hbound'⟩ := ih hsound
    refine ⟨hcut.trans hcut', hsound', fun b => ?_⟩
    rw [List.foldl_cons, hbound' b, hbound b, List.mem_cons, not_or]
    by_cases hab : a = b
    · simp [hab]
    · have hba : ¬ b = a := fun h => hab h.symm
      simp [hab, hba]

/-- An endpoint that takes no requests any more. -/
def deafen (n : Network) (a : Address) : Network := n.update a fun e => { e with listening := false }

theorem Sound.deafen (h : n.Sound) (a : Address) : Cut n (n.deafen a) ∧ (n.deafen a).Sound := by
  let f : Endpoint → Endpoint := fun e => { e with listening := false }
  have hwire : ∀ b q, (n.deafen a).wire? b q = n.wire? b q := wire?_update (f := f) (fun _ => rfl) n a
  have hinbox : ∀ b, (n.deafen a).inbox b = n.inbox b := inbox_update (f := f) (fun _ => rfl) n a
  refine ⟨⟨fun {b} hb => isBound_update n a _ b ▸ hb, fun {b} hl => ?_, fun hw => ⟨hwire _ _ ▸ hw, ?_⟩,
    fun _ hw hnone => ?_, fun _ hd => ?_⟩, h.update (f := f) (fun _ => ⟨rfl, rfl⟩) a⟩
  · rw [listens, Network.deafen, endpoint?_update] at hl
    split at hl
    · cases he : n.endpoint? b <;> simp_all
    · exact hl
  · rw [notes, hinbox, notes]
  · rw [hwire] at hnone
    cases hnone.symm.trans hw
  · rw [notes, hinbox]
    exact hd

theorem Sound.shutdownAll (h : n.Sound) (hs : List Address) (reason : String) :
    let n' := hs.foldl (fun n a => n.shutdown a reason) n
    Cut n n' ∧ n'.Sound ∧ ∀ b, n'.isBound b = n.isBound b := by
  induction hs generalizing n with
  | nil => exact ⟨.refl n, h, fun _ => rfl⟩
  | cons a hs ih =>
    obtain ⟨hdeaf, hsound⟩ := h.deafen a
    obtain ⟨hcut, hsound', hbound, -⟩ := hsound.severAll a reason
    obtain ⟨hcut', hsound'', hbound'⟩ := ih hsound'
    exact ⟨hdeaf.trans (hcut.trans hcut'), hsound'', fun b => (hbound' b).trans ((hbound b).trans (isBound_update ..))⟩

end StateSync.Network
