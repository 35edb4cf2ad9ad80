import StateSync.Proofs.Transport.Observed

/-! What holds of every network (`Sound`): the two ends of a link agree, no peer is given twice, the parcels on
    their way are in order, and an end that is told of a disconnection has no link any more. Each operation keeps
    it, and changes only the ends of one link (`Alike`), or takes links down (`Cut`). -/

namespace StateSync.Network
variable {n n' n'' : Network} {a b c : Address} {p q r : Peer} {w : Wire} {st : LinkState} {F G : Address → Peer → Prop}

structure Sound (n : Network) : Prop where
  paired : ∀ {a p b q st}, n.wire? a p = some ⟨b, q, st⟩ → n.wire? b q = some ⟨a, p, st⟩
  apart : ∀ {a p w}, n.wire? a p = some w → w.remote ≠ a
  fresh : ∀ {a p w}, n.wire? a p = some w → p.val < n.nextPeer
  mailed : ∀ {a x}, x ∈ n.inbox a → x.event.peer.val < n.nextPeer
  sorted : ∀ a, Parcel.Sorted (n.inbox a)
  prompt : ∀ {a x}, x ∈ n.inbox a → x.event.note.isStatus = true → x.release ≤ n.clock
  severed : ∀ {a p}, .down ∈ n.notes a p → n.wire? a p = none

/-- No end but those in `F` notices a difference. -/
structure Alike (n n' : Network) (F : Address → Peer → Prop) : Prop where
  isBound : ∀ a, n'.isBound a = n.isBound a
  listens : ∀ a, n'.listens a = n.listens a
  wire? : ∀ {a p}, ¬ F a p → n'.wire? a p = n.wire? a p
  notes : ∀ {a p}, ¬ F a p → n'.notes a p = n.notes a p

/-- An end, and the other end of its link. -/
def AtLink (n : Network) (a : Address) (p : Peer) (b : Address) (q : Peer) : Prop :=
  (b = a ∧ q = p) ∨ ∃ st, n.wire? a p = some ⟨b, q, st⟩

/-- Links are taken down, with word to each end that is still there; nothing else is noticed by an end that keeps
    its link. -/
structure Cut (n n' : Network) : Prop where
  isBound : ∀ {a}, n'.isBound a = true → n.isBound a = true
  listens : ∀ {a}, n'.listens a = true → n.listens a = true
  kept : ∀ {a p w}, n'.wire? a p = some w → n.wire? a p = some w ∧ n'.notes a p = n.notes a p
  lost : ∀ {a p w}, n'.isBound a = true → n.wire? a p = some w → n'.wire? a p = none → .down ∈ n'.notes a p
  down : ∀ {a p}, n'.isBound a = true → .down ∈ n.notes a p → .down ∈ n'.notes a p

theorem Quiet.alike (h : Quiet n n') (F : Address → Peer → Prop) : Alike n n' F :=
  ⟨h.isBound, h.listens, fun _ => h.wire? _ _, fun _ => h.notes _ _⟩

theorem Alike.trans (h : Alike n n' F) (h' : Alike n' n'' F) : Alike n n'' F where
  isBound a := (h'.isBound a).trans (h.isBound a)
  listens a := (h'.listens a).trans (h.listens a)
  wire? hF := (h'.wire? hF).trans (h.wire? hF)
  notes hF := (h'.notes hF).trans (h.notes hF)

theorem Alike.mono (h : Alike n n' F) (hFG : ∀ a p, F a p → G a p) : Alike n n' G :=
  ⟨h.isBound, h.listens, fun hG => h.wire? fun hF => hG (hFG _ _ hF),
    fun hG => h.notes fun hF => hG (hFG _ _ hF)⟩

theorem Cut.refl (n : Network) : Cut n n :=
  ⟨id, id, fun h => ⟨h, rfl⟩, fun _ h h' => (nomatch h.symm.trans h'), fun _ h => h⟩

theorem Cut.trans (h : Cut n n') (h' : Cut n' n'') : Cut n n'' where
  isBound hb := h.isBound (h'.isBound hb)
  listens hl := h.listens (h'.listens hl)
  kept hw := by
    obtain ⟨hw', hn'⟩ := h'.kept hw
    obtain ⟨hw, hn⟩ := h.kept hw'
    exact ⟨hw, hn'.trans hn⟩
  lost {a p w} hb hw hnone := by
    cases hw' : n'.wire? a p with
    | none => exact h'.down hb (h.lost (h'.isBound hb) hw hw')
    | some w' => exact h'.lost hb hw' hnone
  down hb hd := h'.down hb (h.down (h'.isBound hb) hd)

/-- No link comes into being. -/
theorem Cut.wire?_eq_none (h : Cut n n') (hnone : n.wire? a p = none) : n'.wire? a p = none :=
  Option.eq_none_iff_forall_ne_some.mpr fun _ hw => nomatch hnone.symm.trans (h.kept hw).1

theorem Quiet.cut (h : Quiet n n') : Cut n n' where
  isBound hb := h.isBound _ ▸ hb
  listens hl := h.listens _ ▸ hl
  kept hw := ⟨h.wire? _ _ ▸ hw, h.notes _ _⟩
  lost _ hw hnone := (nomatch (h.wire? _ _).symm.trans hnone |>.symm.trans hw)
  down _ hd := by rwa [h.notes]

/-- Links and parcels that stay as they are stay sound. -/
theorem Sound.of_same (h : n.Sound) (hclock : n'.clock = n.clock) (hnext : n'.nextPeer = n.nextPeer)
    (hinbox : ∀ a, n'.inbox a = n.inbox a) (hwire : ∀ a p, n'.wire? a p = n.wire? a p) : n'.Sound where
  paired hw := by
    rw [hwire] at hw ⊢
    exact h.paired hw
  apart hw := h.apart (hwire _ _ ▸ hw)
  fresh hw := hnext ▸ h.fresh (hwire _ _ ▸ hw)
  mailed hx := hnext ▸ h.mailed (hinbox _ ▸ hx)
  sorted a := hinbox a ▸ h.sorted a
  prompt hx hs := hclock ▸ h.prompt (hinbox _ ▸ hx) hs
  severed hd := by
    rw [Network.notes, hinbox] at hd
    rw [hwire]
    exact h.severed hd

theorem Sound.quiet (h : n.Sound) (hq : Quiet n n') : n'.Sound := h.of_same hq.clock hq.nextPeer hq.inbox hq.wire?

theorem Sound.update {f : Endpoint → Endpoint} (h : n.Sound)
    (hf : ∀ e, (f e).inbox = e.inbox ∧ (f e).links = e.links) (a : Address) : (n.update a f).Sound :=
  h.of_same rfl rfl (inbox_update (fun e => (hf e).1) n a) (wire?_update (fun e => (hf e).2) n a)

theorem Sound.not_down (h : n.Sound) (hw : n.wire? a p = some w) : .down ∉ n.notes a p := fun hd =>
  nomatch (h.severed hd).symm.trans hw

theorem Sound.notes_eq_nil (h : n.Sound) (hp : n.nextPeer ≤ p.val) (a : Address) : n.notes a p = [] := by
  rw [Network.notes, notesFor, List.map_eq_nil_iff, List.filter_eq_nil_iff]
  intro x hx hpeer
  have hlt := h.mailed hx
  rw [of_decide_eq_true hpeer] at hlt
  omega

theorem sound_create (luck : Nat → Luck) : (create luck).Sound where
  paired h := by cases h
  apart h := by cases h
  fresh h := by cases h
  mailed h := by cases h
  sorted _ := List.Pairwise.nil
  prompt h := by cases h
  severed h := by cases h

theorem Sound.elapse (h : n.Sound) (time : Nat) : (n.elapse time).Sound :=
  ⟨h.paired, h.apart, h.fresh, h.mailed, h.sorted, fun hx hs => Nat.le_add_right_of_le (h.prompt hx hs), h.severed⟩

/-! ### Parcels -/

theorem Sound.post (h : n.Sound) {release : Nat} {ev : TransportEvent} (hp : ev.peer.val < n.nextPeer)
    (hr : ev.note.isStatus = true → release ≤ n.clock) (hd : ev.note = .down → n.wire? a ev.peer = none) :
    (n.post a release ev).Sound := by
  have hmem : ∀ {b x}, x ∈ (n.post a release ev).inbox b → x = ⟨release, ev⟩ ∨ x ∈ n.inbox b := by
    intro b x hx
    rw [inbox_post] at hx
    split at hx
    · exact Parcel.mem_enqueue.mp hx
    · exact Or.inr hx
  refine ⟨fun hw => ?_, fun hw => ?_, fun hw => ?_, fun hx => ?_, fun b => ?_, fun hx hs => ?_, fun {b q} hd' => ?_⟩
  · rw [wire?_post] at hw ⊢
    exact h.paired hw
  · exact h.apart (wire?_post .. ▸ hw)
  · exact h.fresh (wire?_post .. ▸ hw)
  · rcases hmem hx with rfl | hx
    · exact hp
    · exact h.mailed hx
  · rw [inbox_post]
    split
    · exact (h.sorted b).enqueue _
    · exact h.sorted b
  · rcases hmem hx with rfl | hx
    · exact hr hs
    · exact h.prompt hx hs
  · rw [wire?_post]
    obtain ⟨x, hx, hpeer, hnote⟩ := mem_notesFor.mp hd'
    rw [inbox_post] at hx
    split at hx
    · rename_i hab
      obtain ⟨rfl, -⟩ := hab
      rcases Parcel.mem_enqueue.mp hx with rfl | hx
      · exact hpeer ▸ hd hnote
      · exact h.severed (mem_notesFor.mpr ⟨x, hx, hpeer, hnote⟩)
    · exact h.severed (mem_notesFor.mpr ⟨x, hx, hpeer, hnote⟩)

theorem alike_post {release : Nat} {ev : TransportEvent} (hF : F a ev.peer) : Alike n (n.post a release ev) F where
  isBound _ := isBound_post ..
  listens _ := listens_post ..
  wire? _ := wire?_post ..
  notes {b q} hnot := notes_post_of_ne fun heq => hnot (by
    obtain ⟨rfl, rfl⟩ := Prod.mk.inj heq
    exact hF)

/-- A packet that is sent now comes behind all that tells of the link. -/
theorem Sound.notes_post_last (h : n.Sound) (hb : n.isBound a = true) {release : Nat} (ev : TransportEvent)
    (hr : n.clock ≤ release) (hstatus : ∀ note ∈ n.notes a ev.peer, note.isStatus = true) :
    (n.post a release ev).notes a ev.peer = n.notes a ev.peer ++ [ev.note] := by
  rw [notes, inbox_post, if_pos ⟨rfl, hb⟩]
  refine Parcel.notesFor_enqueue_last (x := ⟨release, ev⟩) rfl (h.sorted a) fun y hy hpeer => ?_
  exact Nat.le_trans (h.prompt hy (hstatus _ (mem_notesFor.mpr ⟨y, hy, hpeer, rfl⟩))) hr

theorem poll_eq {ev : TransportEvent} (h : n.poll a = (some ev, n')) :
    ∃ x xs, n.inbox a = x :: xs ∧ x.event = ev ∧ x.release ≤ n.clock ∧
      Quiet (n.update a fun e => { e with inbox := xs }) n' := by
  unfold poll at h
  split at h
  · rename_i x xs hxs
    have hin : n.inbox a = x :: xs := by rw [inbox, hxs]; rfl
    split at h
    · rename_i hdue
      dsimp only at h
      split at h
      · rename_i bytes _
        obtain ⟨hev, rfl⟩ := Prod.mk.inj h
        exact ⟨x, xs, hin, Option.some.inj hev, hdue,
          .update (f := countReceived bytes.length) (fun _ => ⟨rfl, rfl, rfl⟩) _ _⟩
      · obtain ⟨hev, rfl⟩ := Prod.mk.inj h
        exact ⟨x, xs, hin, Option.some.inj hev, hdue, .refl _⟩
    · cases h
  · cases h

theorem poll_none (h : n.poll a = (none, n')) : n' = n := by
  unfold poll at h
  split at h
  · split at h
    · dsimp only at h
      split at h <;> cases h
    · exact (Prod.mk.inj h).2.symm
  · exact (Prod.mk.inj h).2.symm

theorem inbox_replace (n : Network) (a : Address) (xs : List Parcel) (hb : n.isBound a = true) (b : Address) :
    (n.update a fun e => { e with inbox := xs }).inbox b = if a = b then xs else n.inbox b := by
  rw [inbox, endpoint?_update, inbox]
  by_cases hab : a = b
  · subst hab
    obtain ⟨e, he⟩ := Option.isSome_iff_exists.mp hb
    rw [if_pos rfl, if_pos rfl, show n.endpoint? a = some e from he]
    rfl
  · rw [if_neg hab, if_neg hab]

/-- A poll takes the first note for the peer of its event, and no other end notices. -/
theorem Sound.poll (h : n.Sound) {ev : TransportEvent} (hpoll : n.poll a = (some ev, n')) :
    n'.Sound ∧ Alike n n' (fun b q => b = a ∧ q = ev.peer) ∧ (∀ b q, n'.wire? b q = n.wire? b q) ∧
      n.notes a ev.peer = ev.note :: n'.notes a ev.peer := by
  obtain ⟨x, xs, hin, rfl, -, hq⟩ := poll_eq hpoll
  have hb : n.isBound a = true := by
    rw [inbox] at hin
    rw [isBound_eq]
    cases he : n.endpoint? a with
    | none => rw [he] at hin; cases hin
    | some e => rfl
  have hinbox : ∀ b, n'.inbox b = if a = b then xs else n.inbox b := by
    intro b
    rw [hq.inbox, inbox_replace n a xs hb]
  have hwire : ∀ b q, n'.wire? b q = n.wire? b q := fun b q =>
    (hq.wire? b q).trans (wire?_update (f := fun e => { e with inbox := xs }) (fun _ => rfl) n a b q)
  have hnext : n'.nextPeer = n.nextPeer := hq.nextPeer
  have hclock : n'.clock = n.clock := hq.clock
  have hnotes : ∀ {b q}, ¬ (b = a ∧ q = x.event.peer) → n'.notes b q = n.notes b q := by
    intro b q hne
    rw [Network.notes, hinbox, Network.notes]
    split
    · rename_i hab
      subst hab
      rw [hin, notesFor_cons, if_neg fun hp => hne ⟨rfl, hp.symm⟩]
    · rfl
  have hmem : ∀ {b y}, y ∈ n'.inbox b → y ∈ n.inbox b := by
    intro b y hy
    rw [hinbox] at hy
    split at hy
    · rename_i hab
      rw [← hab, hin]
      exact List.mem_cons_of_mem _ hy
    · exact hy
  have hfirst : n.notes a x.event.peer = x.event.note :: n'.notes a x.event.peer := by
    rw [Network.notes, hin, notesFor_cons, if_pos rfl, Network.notes, hinbox, if_pos rfl]
  refine ⟨⟨fun hw => ?_, fun hw => h.apart (hwire _ _ ▸ hw), fun hw => hnext ▸ h.fresh (hwire _ _ ▸ hw),
    fun hy => hnext ▸ h.mailed (hmem hy), fun b => ?_, fun hy hs => hclock ▸ h.prompt (hmem hy) hs, fun {b q} hd => ?_⟩,
    ⟨fun b => ?_, fun b => ?_, fun _ => hwire _ _, hnotes⟩, hwire, hfirst⟩
  · rw [hwire] at hw ⊢
    exact h.paired hw
  · rw [hinbox]
    split
    · exact (List.pairwise_cons.mp (hin ▸ h.sorted a)).2
    · exact h.sorted b
  · rw [hwire]
    obtain ⟨y, hy, hpeer, hnote⟩ := mem_notesFor.mp hd
    exact h.severed (mem_notesFor.mpr ⟨y, hmem hy, hpeer, hnote⟩)
  · rw [hq.isBound, isBound_update]
  · rw [hq.listens, listens_update]
    exact fun _ => rfl

end StateSync.Network
