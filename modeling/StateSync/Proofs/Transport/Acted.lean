import StateSync.Proofs.Transport.Others
import StateSync.Proofs.Transport.Packets

/-! Networks that come from one another by acts of some kind (`Acted`): what is noticed elsewhere, where the links
    lead that were there before, and where the packets come from that are on their way. -/

namespace StateSync.Network
variable {n n' n'' : Network} {A B : Act → Prop} {O : Address → Prop} {a b : Address} {p q : Peer} {x : Act}
  {bytes : Bytes} {st : LinkState}

/-- One network comes from another by acts of a kind. -/
inductive Acted (A : Act → Prop) (n : Network) : Network → Prop
  | refl : Acted A n n
  | act {n' : Network} {x : Act} (before : Acted A n n') (kind : A x) : Acted A n (n'.act x)

namespace Acted

theorem one (hx : A x) : Acted A n (n.act x) := .act .refl hx

theorem trans (h : Acted A n n') (h' : Acted A n' n'') : Acted A n n'' := by
  induction h' with
  | refl => exact h
  | act _ kind ih => exact ih.act kind

theorem mono (h : Acted A n n') (hAB : ∀ x, A x → B x) : Acted B n n' := by
  induction h with
  | refl => exact .refl
  | act _ kind ih => exact ih.act (hAB _ kind)

theorem foldl {α : Type} {f : Network → α → Network} {xs : List α} (hf : ∀ n, ∀ x ∈ xs, Acted A n (f n x))
    (n : Network) : Acted A n (xs.foldl f n) := by
  induction xs generalizing n with
  | nil => exact .refl
  | cons x xs ih =>
    exact (hf n x List.mem_cons_self).trans (ih (fun n y hy => hf n y (List.mem_cons_of_mem x hy)) _)

theorem sound (h : Acted A n n') (hn : n.Sound) : n'.Sound := by
  induction h with
  | refl => exact hn
  | act _ _ ih => exact ih.act _

theorem spares (h : Acted A n n') (hn : n.Sound) (hA : ∀ x, A x → x.Elsewhere O) : Spares n n' O := by
  induction h with
  | refl => exact .refl hn
  | act _ kind ih => exact ih.trans (ih.sound.spares _ (hA _ kind))

end Acted

/-! ### Where links lead -/

/-- Old links lead where they led. -/
structure Continues (n n' : Network) : Prop where
  nextPeer : n.nextPeer ≤ n'.nextPeer
  leads : ∀ {a p b q st}, n'.wire? a p = some ⟨b, q, st⟩ → p.val < n.nextPeer → ∃ st', n.wire? a p = some ⟨b, q, st'⟩

theorem Continues.refl (n : Network) : Continues n n := ⟨Nat.le_refl _, fun hw _ => ⟨_, hw⟩⟩

theorem Continues.trans (h : Continues n n') (h' : Continues n' n'') : Continues n n'' where
  nextPeer := Nat.le_trans h.nextPeer h'.nextPeer
  leads hw hp := by
    obtain ⟨st', hw'⟩ := h'.leads hw (Nat.lt_of_lt_of_le hp h.nextPeer)
    exact h.leads hw' hp

theorem Inherits.continues (h : Inherits n n') : Continues n n' := ⟨h.nextPeer, fun hw hp => h.wire? hw hp⟩

theorem Quiet.continues (h : Quiet n n') : Continues n n' :=
  ⟨Nat.le_of_eq h.nextPeer.symm, fun hw _ => ⟨_, (h.wire? _ _).symm.trans hw⟩⟩

theorem continues_act (n : Network) (x : Act) : Continues n (n.act x) := by
  cases x with
  | send addr peer bytes d =>
    rcases n.send_cases addr peer bytes d with hq | ⟨b, q, -, hposts⟩
    · exact hq.continues
    · refine ⟨?_, fun hw _ => ⟨_, (hposts.wire? _ _).symm.trans hw⟩⟩
      obtain ⟨release, -, hq⟩ := hposts
      exact Nat.le_of_eq hq.nextPeer.symm
  | poll addr =>
    rcases hpoll : n.poll addr with ⟨_ | ev, n'⟩
    · rw [Network.act, hpoll, poll_none hpoll]
      exact .refl n
    · rw [Network.act, hpoll]
      exact (poll_takes hpoll).1.continues
  | close addr => exact ((Still.severAll n addr _).toInherits.trans (inherits_unbind _ addr)).continues
  | _ => exact (still_act n rfl).toInherits.continues

theorem Acted.continues (h : Acted A n n') : Continues n n' := by
  induction h with
  | refl => exact .refl n
  | act _ _ ih => exact ih.trans (continues_act _ _)

/-! ### Where packets come from -/

theorem mem_frames : Note.frame bytes ∈ n.notes b q ↔ ∃ y ∈ n.packets b, y.event = .data q bytes := by
  rw [notes, mem_notesFor]
  constructor
  · rintro ⟨y, hy, hpeer, hnote⟩
    cases he : y.event with
    | data q' bytes' =>
      rw [he] at hpeer hnote
      obtain rfl : q' = q := hpeer
      obtain rfl := Note.frame.inj hnote
      refine ⟨y, List.mem_filter.mpr ⟨hy, ?_⟩, he⟩
      rw [Parcel.isPacket, he]
      rfl
    | _ =>
      rw [he] at hnote
      cases hnote
  · rintro ⟨y, hy, he⟩
    exact ⟨y, (List.mem_filter.mp hy).1, by rw [he]; rfl, by rw [he]; rfl⟩

theorem frame_of_still (h : Still n n') (hmem : .frame bytes ∈ n'.notes b q) : .frame bytes ∈ n.notes b q := by
  rw [mem_frames, h.packets] at hmem
  exact mem_frames.mpr hmem

theorem frame_of_inbox (h : ∀ y ∈ n'.inbox b, y ∈ n.inbox b) (hmem : .frame bytes ∈ n'.notes b q) :
    .frame bytes ∈ n.notes b q := by
  obtain ⟨y, hy, hnote⟩ := mem_notesFor.mp hmem
  exact mem_notesFor.mpr ⟨y, h y hy, hnote⟩

/-- A packet on its way was so before the act, or the act has sent it. -/
theorem frame_of_act (h : n.Sound) (hmem : .frame bytes ∈ (n.act x).notes b q) : .frame bytes ∈ n.notes b q ∨
    ∃ a p d, x = .send a p bytes d ∧ n.wire? a p = some ⟨b, q, .connected⟩ := by
  cases x with
  | send addr peer bytes' d =>
    rcases n.send_cases addr peer bytes' d with hq | ⟨b', q', hw, hposts⟩
    · left
      rwa [Network.act, hq.notes] at hmem
    · by_cases hend : (b', q') = (b, q)
      · obtain ⟨rfl, rfl⟩ := Prod.mk.inj hend
        have hperm := hposts.notes_perm (isBound_of_wire? (h.paired hw))
        rcases List.mem_cons.mp (hperm.mem_iff.mp hmem) with heq | hmem
        · obtain rfl := Note.frame.inj heq
          exact Or.inr ⟨addr, peer, d, rfl, hw⟩
        · exact Or.inl hmem
      · left
        rwa [Network.act, hposts.notes_of_ne hend] at hmem
  | poll addr =>
    left
    rcases hpoll : n.poll addr with ⟨_ | ev, n'⟩
    · rwa [Network.act, hpoll, poll_none hpoll] at hmem
    · rw [Network.act, hpoll] at hmem
      obtain ⟨-, ⟨y, -, hinbox⟩, hsame⟩ := poll_takes hpoll
      refine frame_of_inbox (fun z hz => ?_) hmem
      by_cases hb : b = addr
      · subst hb
        rw [hinbox]
        exact List.mem_cons_of_mem y hz
      · rwa [hsame hb] at hz
  | close addr =>
    left
    refine frame_of_still (.severAll n addr "endpoint closed") (frame_of_inbox (fun y hy => ?_) hmem)
    rw [inbox, show (n.act (.close addr)).endpoint? b = _ from endpoint?_unbind ..] at hy
    split at hy
    · cases hy
    · exact hy
  | _ => exact Or.inl (frame_of_still (still_act n rfl) hmem)

/-- A packet on its way at an end that is known was so before, or was sent from the other end of its link. -/
theorem Acted.frame (h : Acted A n n') (hn : n.Sound) (hq : q.val < n.nextPeer) (hmem : .frame bytes ∈ n'.notes b q) :
    .frame bytes ∈ n.notes b q ∨ ∃ a p st d, A (.send a p bytes d) ∧ n.wire? a p = some ⟨b, q, st⟩ := by
  induction h with
  | refl => exact Or.inl hmem
  | act before kind ih =>
    rcases frame_of_act (before.sound hn) hmem with hmem | ⟨a, p, d, rfl, hw⟩
    · exact ih hmem
    · obtain ⟨st, hw⟩ := before.continues.leads ((before.sound hn).paired hw) hq
      exact Or.inr ⟨a, p, st, d, kind, hn.paired hw⟩

end StateSync.Network
