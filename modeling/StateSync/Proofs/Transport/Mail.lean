import StateSync.Transport.Network

/-! The events on their way to an endpoint, sorted by the peer they are about: what each tells (`Note`), and what
    one more parcel does to the notes for each peer. -/

namespace StateSync

/-- The peer that an event is about. -/
def TransportEvent.peer : TransportEvent → Peer
  | .approvalRequest p => p
  | .connected p _ => p
  | .disconnected p _ => p
  | .data p _ => p

/-- What an event tells of its peer. -/
inductive Note where
  | asks
  | up
  | down
  | frame (bytes : Bytes)
  deriving DecidableEq, Repr

def TransportEvent.note : TransportEvent → Note
  | .approvalRequest _ => .asks
  | .connected _ _ => .up
  | .disconnected _ _ => .down
  | .data _ bytes => .frame bytes

/-- Whether a note tells of the link, and is no packet on it. -/
def Note.isStatus : Note → Bool
  | .frame _ => false
  | _ => true

/-- The notes for a peer among parcels, in their order. -/
def notesFor (p : Peer) (parcels : List Parcel) : List Note :=
  (parcels.filter fun x => x.event.peer = p).map (·.event.note)

variable {x y : Parcel} {xs : List Parcel} {p : Peer} {note : Note}

theorem notesFor_cons : notesFor p (x :: xs) =
    if x.event.peer = p then x.event.note :: notesFor p xs else notesFor p xs := by
  by_cases h : x.event.peer = p <;> simp [notesFor, h]

theorem mem_notesFor : note ∈ notesFor p xs ↔ ∃ x ∈ xs, x.event.peer = p ∧ x.event.note = note := by
  simp [notesFor, and_assoc]

namespace Parcel

/-- Parcels are in the order of their release. -/
def Sorted (xs : List Parcel) : Prop := xs.Pairwise fun x y => x.release ≤ y.release

theorem enqueue_perm (x : Parcel) (xs : List Parcel) : (x.enqueue xs).Perm (x :: xs) := by
  induction xs with
  | nil => exact .refl _
  | cons q qs ih =>
    rw [enqueue]
    split
    · exact (ih.cons q).trans (.swap x q qs)
    · exact .refl _

theorem mem_enqueue : y ∈ x.enqueue xs ↔ y = x ∨ y ∈ xs := (enqueue_perm x xs).mem_iff.trans List.mem_cons

theorem length_enqueue (x : Parcel) (xs : List Parcel) : (x.enqueue xs).length = xs.length + 1 :=
  (enqueue_perm x xs).length_eq

theorem Sorted.enqueue (h : Sorted xs) (x : Parcel) : Sorted (x.enqueue xs) := by
  induction xs with
  | nil => exact List.pairwise_singleton _ _
  | cons q qs ih =>
    obtain ⟨hq, hqs⟩ := List.pairwise_cons.mp h
    rw [Parcel.enqueue]
    split
    · rename_i hle
      refine List.pairwise_cons.mpr ⟨fun y hy => ?_, ih hqs⟩
      rcases mem_enqueue.mp hy with rfl | hy
      · exact hle
      · exact hq y hy
    · rename_i hlt
      refine List.pairwise_cons.mpr ⟨fun y hy => ?_, h⟩
      rcases List.mem_cons.mp hy with rfl | hy
      · omega
      · have := hq y hy
        omega

theorem notesFor_enqueue_of_ne (h : x.event.peer ≠ p) (xs : List Parcel) :
    notesFor p (x.enqueue xs) = notesFor p xs := by
  induction xs with
  | nil => rw [enqueue, notesFor_cons, if_neg h]
  | cons q qs ih =>
    rw [enqueue]
    split
    · rw [notesFor_cons, notesFor_cons, ih]
    · rw [notesFor_cons, if_neg h]

theorem notesFor_enqueue_perm (h : x.event.peer = p) (xs : List Parcel) :
    (notesFor p (x.enqueue xs)).Perm (x.event.note :: notesFor p xs) := by
  have hperm : (notesFor p (x.enqueue xs)).Perm (notesFor p (x :: xs)) := ((enqueue_perm x xs).filter _).map _
  rwa [notesFor_cons, if_pos h] at hperm

/-- A parcel that is released no earlier than all others for its peer comes last for the peer. -/
theorem notesFor_enqueue_last (h : x.event.peer = p) (hs : Sorted xs)
    (hle : ∀ y ∈ xs, y.event.peer = p → y.release ≤ x.release) :
    notesFor p (x.enqueue xs) = notesFor p xs ++ [x.event.note] := by
  induction xs with
  | nil =>
    rw [enqueue, notesFor_cons, if_pos h]
    rfl
  | cons q qs ih =>
    obtain ⟨hq, hqs⟩ := List.pairwise_cons.mp hs
    rw [enqueue]
    split
    · rw [notesFor_cons, notesFor_cons, ih hqs fun y hy => hle y (List.mem_cons_of_mem _ hy)]
      split <;> rfl
    · rename_i hlt
      -- What follows `q` is released no earlier than `q`, so none of it is for the peer.
      have hnone : notesFor p (q :: qs) = [] := by
        rw [notesFor, List.map_eq_nil_iff, List.filter_eq_nil_iff]
        intro y hy hp
        have hy' := hle y hy (of_decide_eq_true hp)
        rcases List.mem_cons.mp hy with rfl | hmem
        · exact hlt hy'
        · exact hlt (Nat.le_trans (hq y hmem) hy')
      rw [notesFor_cons, if_pos h, hnone]
      rfl

end Parcel
end StateSync
