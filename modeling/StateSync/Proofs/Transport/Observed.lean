import StateSync.Proofs.Transport.Mail

/-! What the ends of a network can come to notice of it: where each link leads and how far it has come, which
    events are on their way, which addresses are bound and which of them listen. Each single update is known by
    what it does to these; most of what a transport does for itself is nothing (`Quiet`). -/

namespace StateSync

/-- Where a link leads, and how far it has come. -/
structure Wire where
  remote : Address
  remotePeer : Peer
  state : LinkState
  deriving DecidableEq, Repr

def Link.wire (l : Link) : Wire := ⟨l.remote, l.remotePeer, l.state⟩

namespace Network
variable {n n' n'' : Network} {a b : Address} {p q : Peer} {e : Endpoint} {l : Link}

def inbox (n : Network) (a : Address) : List Parcel := ((n.endpoint? a).map (·.inbox)).getD []

def listens (n : Network) (a : Address) : Bool := (n.endpoint? a).any (·.listening)

def wire? (n : Network) (a : Address) (p : Peer) : Option Wire := (n.link? a p).map (·.wire)

/-- What is on its way to an address about one of its peers. -/
def notes (n : Network) (a : Address) (p : Peer) : List Note := notesFor p (n.inbox a)

theorem isBound_eq (n : Network) (a : Address) : n.isBound a = (n.endpoint? a).isSome := rfl

theorem isBound_of_wire? {w : Wire} (h : n.wire? a p = some w) : n.isBound a = true := by
  obtain ⟨l, hl, -⟩ := Option.map_eq_some_iff.mp h
  obtain ⟨e, he, -⟩ := Option.bind_eq_some_iff.mp hl
  rw [isBound_eq, he]
  rfl

theorem isBound_of_listens (h : n.listens a = true) : n.isBound a = true := by
  rw [listens] at h
  rw [isBound_eq]
  cases he : n.endpoint? a with
  | none => rw [he] at h; cases h
  | some e => rfl

theorem wire?_of_not_bound (h : n.isBound a = false) (p : Peer) : n.wire? a p = none := by
  cases hw : n.wire? a p with
  | none => rfl
  | some w => rw [isBound_of_wire? hw] at h; cases h

theorem link?_of_wire? {w : Wire} (h : n.wire? a p = some w) : ∃ l, n.link? a p = some l ∧ l.wire = w :=
  Option.map_eq_some_iff.mp h

theorem wire?_of_link? (h : n.link? a p = some l) : n.wire? a p = some l.wire := by
  rw [wire?, h]
  rfl

/-- A link has one other end, and is in one state. -/
theorem wire_inj {b' : Address} {q' : Peer} {st st' : LinkState} (h : n.wire? a p = some ⟨b, q, st⟩)
    (h' : n.wire? a p = some ⟨b', q', st'⟩) : b = b' ∧ q = q' ∧ st = st' :=
  Wire.mk.inj (Option.some.inj (h.symm.trans h'))

/-! ### Nothing to be noticed -/

/-- No end notices a difference. -/
structure Quiet (n n' : Network) : Prop where
  clock : n'.clock = n.clock
  nextPeer : n'.nextPeer = n.nextPeer
  isBound : ∀ a, n'.isBound a = n.isBound a
  listens : ∀ a, n'.listens a = n.listens a
  inbox : ∀ a, n'.inbox a = n.inbox a
  wire? : ∀ a p, n'.wire? a p = n.wire? a p

theorem Quiet.refl (n : Network) : Quiet n n :=
  ⟨rfl, rfl, fun _ => rfl, fun _ => rfl, fun _ => rfl, fun _ _ => rfl⟩

theorem Quiet.trans (h : Quiet n n') (h' : Quiet n' n'') : Quiet n n'' where
  clock := h'.clock.trans h.clock
  nextPeer := h'.nextPeer.trans h.nextPeer
  isBound a := (h'.isBound a).trans (h.isBound a)
  listens a := (h'.listens a).trans (h.listens a)
  inbox a := (h'.inbox a).trans (h.inbox a)
  wire? a p := (h'.wire? a p).trans (h.wire? a p)

theorem Quiet.notes (h : Quiet n n') (a : Address) (p : Peer) : n'.notes a p = n.notes a p := by
  rw [Network.notes, h.inbox, Network.notes]

/-! ### Updates of an endpoint -/

theorem endpoint?_update (n : Network) (a : Address) (f : Endpoint → Endpoint) (b : Address) :
    (n.update a f).endpoint? b = if a = b then (n.endpoint? b).map f else n.endpoint? b := Assoc.get?_modify ..

theorem isBound_update (n : Network) (a : Address) (f : Endpoint → Endpoint) (b : Address) :
    (n.update a f).isBound b = n.isBound b := by
  rw [isBound_eq, endpoint?_update, isBound_eq]
  split
  · exact Option.isSome_map
  · rfl

theorem map_endpoint?_update {α : Type} {f : Endpoint → Endpoint} {g : Endpoint → α} (hf : ∀ e, g (f e) = g e)
    (n : Network) (a b : Address) : ((n.update a f).endpoint? b).map g = (n.endpoint? b).map g := by
  rw [endpoint?_update]
  split
  · rw [Option.map_map]
    exact congrArg (Option.map · _) (funext hf)
  · rfl

theorem inbox_update {f : Endpoint → Endpoint} (hf : ∀ e, (f e).inbox = e.inbox) (n : Network) (a b : Address) :
    (n.update a f).inbox b = n.inbox b := by
  rw [inbox, map_endpoint?_update hf, inbox]

theorem listens_update {f : Endpoint → Endpoint} (hf : ∀ e, (f e).listening = e.listening) (n : Network)
    (a b : Address) : (n.update a f).listens b = n.listens b := by
  have hmap := map_endpoint?_update hf n a b
  rw [listens, listens]
  cases h : n.endpoint? b <;> cases h' : (n.update a f).endpoint? b <;> simp_all

theorem link?_update {f : Endpoint → Endpoint} (hf : ∀ e, (f e).links = e.links) (n : Network) (a b : Address)
    (q : Peer) : (n.update a f).link? b q = n.link? b q := by
  have hmap := map_endpoint?_update hf n a b
  rw [link?, link?]
  cases h : n.endpoint? b <;> cases h' : (n.update a f).endpoint? b <;> simp_all

theorem wire?_update {f : Endpoint → Endpoint} (hf : ∀ e, (f e).links = e.links) (n : Network) (a b : Address)
    (q : Peer) : (n.update a f).wire? b q = n.wire? b q := by
  rw [wire?, link?_update hf, wire?]

theorem Quiet.update {f : Endpoint → Endpoint}
    (hf : ∀ e, (f e).listening = e.listening ∧ (f e).inbox = e.inbox ∧ (f e).links = e.links) (n : Network)
    (a : Address) : Quiet n (n.update a f) where
  clock := rfl
  nextPeer := rfl
  isBound b := isBound_update n a f b
  listens b := listens_update (fun e => (hf e).1) n a b
  inbox b := inbox_update (fun e => (hf e).2.1) n a b
  wire? b q := wire?_update (fun e => (hf e).2.2) n a b q

/-! ### Links -/

theorem link?_setLink (n : Network) (a : Address) (p : Peer) (l : Link) (b : Address) (q : Peer) :
    (n.setLink a p l).link? b q = if a = b ∧ p = q ∧ n.isBound a = true then some l else n.link? b q := by
  rw [link?, setLink, endpoint?_update, link?, isBound_eq]
  by_cases hab : a = b
  · subst hab
    cases he : n.endpoint? a with
    | none => simp
    | some e =>
      by_cases hpq : p = q <;> simp [Assoc.get?_insert, hpq]
  · simp [hab]

theorem link?_dropLink (n : Network) (a : Address) (p : Peer) (b : Address) (q : Peer) :
    (n.dropLink a p).link? b q = if a = b ∧ p = q then none else n.link? b q := by
  rw [link?, dropLink, endpoint?_update, link?]
  by_cases hab : a = b
  · subst hab
    cases he : n.endpoint? a with
    | none => simp
    | some e =>
      by_cases hpq : p = q <;> simp [Assoc.get?_erase, hpq]
  · simp [hab]

theorem wire?_setLink (n : Network) (a : Address) (p : Peer) (l : Link) (b : Address) (q : Peer) :
    (n.setLink a p l).wire? b q = if a = b ∧ p = q ∧ n.isBound a = true then some l.wire else n.wire? b q := by
  rw [wire?, link?_setLink, wire?]
  split <;> rfl

theorem wire?_dropLink (n : Network) (a : Address) (p : Peer) (b : Address) (q : Peer) :
    (n.dropLink a p).wire? b q = if a = b ∧ p = q then none else n.wire? b q := by
  rw [wire?, link?_dropLink, wire?]
  split <;> rfl

@[simp] theorem isBound_setLink (n : Network) (a : Address) (p : Peer) (l : Link) (b : Address) :
    (n.setLink a p l).isBound b = n.isBound b := isBound_update ..

@[simp] theorem listens_setLink (n : Network) (a : Address) (p : Peer) (l : Link) (b : Address) :
    (n.setLink a p l).listens b = n.listens b := by
  unfold setLink
  rw [listens_update]
  exact fun _ => rfl

@[simp] theorem inbox_setLink (n : Network) (a : Address) (p : Peer) (l : Link) (b : Address) :
    (n.setLink a p l).inbox b = n.inbox b := by
  unfold setLink
  rw [inbox_update]
  exact fun _ => rfl

@[simp] theorem isBound_dropLink (n : Network) (a : Address) (p : Peer) (b : Address) :
    (n.dropLink a p).isBound b = n.isBound b := isBound_update ..

@[simp] theorem listens_dropLink (n : Network) (a : Address) (p : Peer) (b : Address) :
    (n.dropLink a p).listens b = n.listens b := by
  unfold dropLink
  rw [listens_update]
  exact fun _ => rfl

@[simp] theorem inbox_dropLink (n : Network) (a : Address) (p : Peer) (b : Address) :
    (n.dropLink a p).inbox b = n.inbox b := by
  unfold dropLink
  rw [inbox_update]
  exact fun _ => rfl

/-- Another release time for the ordered packets of a link is not noticed. -/
theorem Quiet.setLink (hl : n.link? a p = some l) (r : Nat) :
    Quiet n (n.setLink a p { l with orderedRelease := r }) where
  clock := rfl
  nextPeer := rfl
  isBound _ := isBound_setLink ..
  listens _ := listens_setLink ..
  inbox _ := inbox_setLink ..
  wire? b q := by
    rw [wire?_setLink]
    split
    · rename_i h
      obtain ⟨rfl, rfl, -⟩ := h
      rw [wire?_of_link? hl]
      rfl
    · rfl

/-! ### Parcels -/

theorem inbox_post (n : Network) (a : Address) (release : Nat) (ev : TransportEvent) (b : Address) :
    (n.post a release ev).inbox b =
      if a = b ∧ n.isBound a = true then Parcel.enqueue ⟨release, ev⟩ (n.inbox b) else n.inbox b := by
  rw [inbox, post, endpoint?_update, inbox, isBound_eq]
  by_cases hab : a = b
  · subst hab
    cases he : n.endpoint? a with
    | none => simp
    | some e => simp
  · simp [hab]

@[simp] theorem wire?_post (n : Network) (a : Address) (release : Nat) (ev : TransportEvent) (b : Address) (q : Peer) :
    (n.post a release ev).wire? b q = n.wire? b q := by
  unfold wire? post
  rw [link?_update]
  exact fun _ => rfl

@[simp] theorem isBound_post (n : Network) (a : Address) (release : Nat) (ev : TransportEvent) (b : Address) :
    (n.post a release ev).isBound b = n.isBound b := isBound_update ..

@[simp] theorem listens_post (n : Network) (a : Address) (release : Nat) (ev : TransportEvent) (b : Address) :
    (n.post a release ev).listens b = n.listens b := by
  unfold post
  rw [listens_update]
  exact fun _ => rfl

theorem Quiet.post (h : Quiet n n') (a : Address) (release : Nat) (ev : TransportEvent) :
    Quiet (n.post a release ev) (n'.post a release ev) where
  clock := h.clock
  nextPeer := h.nextPeer
  isBound b := by rw [isBound_post, isBound_post, h.isBound]
  listens b := by rw [listens_post, listens_post, h.listens]
  inbox b := by rw [inbox_post, inbox_post, h.isBound, h.inbox]
  wire? b q := by rw [wire?_post, wire?_post, h.wire?]

theorem notes_post_of_ne {release : Nat} {ev : TransportEvent} (h : (a, ev.peer) ≠ (b, q)) :
    (n.post a release ev).notes b q = n.notes b q := by
  rw [notes, inbox_post, notes]
  split
  · rename_i hab
    obtain ⟨rfl, -⟩ := hab
    exact Parcel.notesFor_enqueue_of_ne (fun hp => h (Prod.ext rfl hp)) _
  · rfl

theorem notes_post_perm (hb : n.isBound a = true) (release : Nat) (ev : TransportEvent) :
    ((n.post a release ev).notes a ev.peer).Perm (ev.note :: n.notes a ev.peer) := by
  rw [notes, inbox_post, if_pos ⟨rfl, hb⟩]
  exact Parcel.notesFor_enqueue_perm (x := ⟨release, ev⟩) rfl _

theorem mem_notes_post {release : Nat} {ev : TransportEvent} {note : Note} (h : note ∈ n.notes b q) :
    note ∈ (n.post a release ev).notes b q := by
  by_cases hkey : (a, ev.peer) = (b, q)
  · obtain ⟨rfl, rfl⟩ := Prod.mk.inj hkey
    cases hb : n.isBound a with
    | true => exact (notes_post_perm hb release ev).mem_iff.mpr (List.mem_cons_of_mem _ h)
    | false =>
      rw [notes, inbox_post, if_neg (by simp [hb])]
      exact h
  · rwa [notes_post_of_ne hkey]

end Network
end StateSync
