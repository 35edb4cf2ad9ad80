import StateSync.Demo.Play
import StateSync.Proofs.Archive.State
import StateSync.Proofs.Manager.Frames
import StateSync.Proofs.State.Beginning

/-! What the two sides of the demo register and how they read each other's frames; how far a client has come
    (`StateBuffer.Reached`), and what a world makes of the ticks that it takes for acknowledged. -/

namespace StateSync

/-! ### Kinds -/

/-- The frame carries the message under the byte. -/
def MessageType.Reads {α : Type} (t : MessageType α) (i : UInt8) (frame : Bytes) (x : α) : Prop :=
  ∃ payload, frame = Frame.encode i payload ∧ t.decode payload = .ok x

/-- Nothing is read but what was sent. -/
theorem MessageType.RoundTrips.reads {α : Type} {t : MessageType α} {x y : α} {i j : UInt8} {payload : Bytes}
    (h : t.RoundTrips) (hencode : t.encode x = .ok payload) (hr : t.Reads j (Frame.encode i payload) y) : y = x := by
  obtain ⟨payload', hframe, hdecode⟩ := hr
  obtain ⟨-, rfl⟩ := List.cons.inj hframe
  exact Except.ok.inj (hdecode.symm.trans (h x payload hencode))

namespace Registry
variable {δ : Type} {r : Registry δ} {t : MessageType δ} {payload : Bytes} {x : δ}

/-- There is a handler for one kind, and none for any other. -/
structure HearsOnly (r : Registry δ) (t : MessageType δ) : Prop where
  only : ∀ {name k handle}, r.kinds.get? name = some k → k.handler = some handle →
    name = t.name ∧ handle = handlerOf t id

theorem hearsOnly_create (t : MessageType δ) : create.HearsOnly t where
  only {name k handle} hk hhandle := by
    rw [create, Assoc.get?_insert, Assoc.get?_empty] at hk
    split at hk
    · obtain rfl := Option.some.inj hk
      cases hhandle
    · cases hk

/-- One more kind is registered, for which there is no handler. -/
theorem HearsOnly.deaf (h : r.HearsOnly t) (other : String) (group : MessageGroup) :
    HearsOnly ⟨r.kinds.insert other ⟨group, none⟩⟩ t where
  only {name k handle} hk hhandle := by
    rw [Assoc.get?_insert] at hk
    split at hk
    · obtain rfl := Option.some.inj hk
      cases hhandle
    · exact h.only hk hhandle

/-- The kind itself is registered. -/
theorem HearsOnly.hearing (h : r.HearsOnly t) (group : MessageGroup) :
    HearsOnly ⟨r.kinds.insert t.name ⟨group, some (handlerOf t id)⟩⟩ t where
  only {name k handle} hk hhandle := by
    rw [Assoc.get?_insert] at hk
    split at hk
    · rename_i hname
      obtain rfl := Option.some.inj hk
      exact ⟨hname.symm, (Option.some.inj hhandle).symm⟩
    · exact h.only hk hhandle

theorem HearsOnly.dispatch (h : r.HearsOnly t) {name : String} (hx : (r.dispatch name payload).toOption = some x) :
    name = t.name ∧ t.decode payload = .ok x := by
  unfold Registry.dispatch at hx
  split at hx
  · cases hx
  · rename_i k hk
    split at hx
    · cases hx
    · rename_i handle hhandle
      obtain ⟨rfl, rfl⟩ := h.only hk hhandle
      unfold handlerOf at hx
      split at hx
      · rename_i y hdecode
        rw [hdecode]
        exact ⟨rfl, congrArg _ (Option.some.inj hx)⟩
      · cases hx

/-- All that is read is of the one kind. -/
theorem HearsOnly.reads (h : r.HearsOnly t) {strings : StringTable} {frame : Bytes}
    (hx : r.read? strings frame = some x) : ∃ i, strings.get? i = some t.name ∧ t.Reads i frame x := by
  cases frame with
  | nil => cases hx
  | cons i payload =>
    by_cases hi : i = StringTable.bootstrapId
    · rw [Registry.read?, if_pos hi] at hx
      cases hx
    · rw [Registry.read?, if_neg hi] at hx
      obtain ⟨name, hname, hdispatch⟩ := Option.bind_eq_some_iff.mp hx
      obtain ⟨rfl, hdecode⟩ := h.dispatch hdispatch
      exact ⟨i, hname, payload, rfl, hdecode⟩

end Registry

namespace Server

/-- What a server has registered: it sends states, and hears of those that were applied. -/
def kinds : Registry UInt32 where
  kinds := (Registry.create.kinds.insert MessageType.state.name ⟨MessageType.state.group, none⟩).insert
    MessageType.stateAck.name ⟨MessageType.stateAck.group, some (Registry.handlerOf MessageType.stateAck id)⟩

def names : List String := [StringTable.bootstrapName, MessageType.state.name, MessageType.stateAck.name]

/-- The bytes that stand for a state and for an acknowledgement. -/
def stateId : UInt8 := 1

def ackId : UInt8 := 2

def enrolled (s : Settings) : Manager Address UInt32 :=
  { Manager.create .server s with strings := ⟨names, false⟩, registry := kinds }

theorem register_eq (s : Settings) : register s = .ok (enrolled s) := rfl

theorem kinds_hearsOnly : kinds.HearsOnly MessageType.stateAck :=
  ((Registry.hearsOnly_create _).deaf MessageType.state.name MessageType.state.group).hearing MessageType.stateAck.group

section
variable {strings : StringTable} {i : UInt8}

theorem names_eq_of_get? (h : strings.names = names) {name : String} (hi : strings.get? i = some name) :
    (i = StringTable.bootstrapId ∧ name = StringTable.bootstrapName) ∨ (i = stateId ∧ name = MessageType.state.name) ∨
      (i = ackId ∧ name = MessageType.stateAck.name) := by
  rw [StringTable.get?, h] at hi
  obtain ⟨hlt, hname⟩ := List.getElem?_eq_some_iff.mp hi
  have hbound : i.toNat < 3 := hlt
  have hcases : i.toNat = 0 ∨ i.toNat = 1 ∨ i.toNat = 2 := by omega
  rcases hcases with h0 | h1 | h2
  · simp only [h0] at hname
    exact Or.inl ⟨UInt8.toNat_inj.mp h0, hname.symm⟩
  · simp only [h1] at hname
    exact Or.inr (Or.inl ⟨UInt8.toNat_inj.mp h1, hname.symm⟩)
  · simp only [h2] at hname
    exact Or.inr (Or.inr ⟨UInt8.toNat_inj.mp h2, hname.symm⟩)

/-- A server reads acknowledgements. -/
theorem reads_of_read? (h : strings.names = names) {frame : Bytes} {tick : UInt32}
    (hr : kinds.read? strings frame = some tick) : MessageType.stateAck.Reads ackId frame tick := by
  obtain ⟨i, hi, hreads⟩ := kinds_hearsOnly.reads hr
  rcases names_eq_of_get? h hi with ⟨-, hname⟩ | ⟨-, hname⟩ | ⟨rfl, -⟩
  · exact absurd hname (by decide)
  · exact absurd hname (by decide)
  · exact hreads

end

end Server

namespace Player

/-- What a client has registered: it hears of states, and sends acknowledgements. -/
def kinds : Registry GameState where
  kinds := (Registry.create.kinds.insert MessageType.state.name
    ⟨MessageType.state.group, some (Registry.handlerOf MessageType.state id)⟩).insert MessageType.stateAck.name
    ⟨MessageType.stateAck.group, none⟩

def enrolled (s : Settings) : Manager Address GameState := { Manager.create .client s with registry := kinds }

theorem register_eq (s : Settings) : register s = .ok (enrolled s) := rfl

theorem kinds_hearsOnly : kinds.HearsOnly MessageType.state :=
  ((Registry.hearsOnly_create _).hearing MessageType.state.group).deaf MessageType.stateAck.name
    MessageType.stateAck.group

/-- A client that has the server's names reads states. -/
theorem reads_of_read? {strings : StringTable} (h : strings.names = Server.names) {frame : Bytes} {x : GameState}
    (hr : kinds.read? strings frame = some x) : MessageType.state.Reads Server.stateId frame x := by
  obtain ⟨i, hi, hreads⟩ := kinds_hearsOnly.reads hr
  rcases Server.names_eq_of_get? h hi with ⟨-, hname⟩ | ⟨rfl, -⟩ | ⟨-, hname⟩
  · exact absurd hname (by decide)
  · exact hreads
  · exact absurd hname (by decide)

/-- One that has no name table yet reads nothing. -/
theorem read?_create (frame : Bytes) : kinds.read? StringTable.create frame = none := by
  refine Option.eq_none_iff_forall_ne_some.mpr fun x hr => ?_
  obtain ⟨i, hi, -⟩ := kinds_hearsOnly.reads hr
  exact absurd (List.mem_of_getElem? hi) (by decide)

end Player

/-! ### How far a client has come -/

namespace StateBuffer
variable {b : StateBuffer} {x : GameState} {tick clock : UInt32}

/-- A state has been applied that leads up to the tick, or past it. -/
def Reached (b : StateBuffer) (tick : UInt32) : Prop := ∃ last ∈ b.lastTick, tick ≤ last

/-- The state stands by itself, or on a tick that has been reached. -/
def Admits (b : StateBuffer) (x : GameState) : Prop := x.isFull = true ∨ b.Reached x.fromTick

/-- It leaves no gap then, if it is of any use. -/
theorem Admits.chains (h : b.Admits x) {last : UInt32} (hlast : b.lastTick = some last) (hlt : last < x.toTick) :
    x.isFull = true ∨ x.chainsFrom last = true := by
  refine h.imp id fun ⟨last', hlast', hle⟩ => ?_
  obtain rfl := Option.some.inj (hlast.symm.trans hlast')
  exact GameState.chainsFrom_iff.mpr ⟨hle, hlt⟩

theorem isWaiting_iff : b.isWaiting = true ↔ b.lastTick = none := by
  rw [isWaiting, lastTick, Option.isNone_iff_eq_none, Option.map_eq_none_iff]

theorem not_reached (h : b.isWaiting = true) : ¬ b.Reached tick := by
  rintro ⟨last, hlast, -⟩
  rw [isWaiting_iff.mp h] at hlast
  cases hlast

theorem Admits.isFull (h : b.Admits x) (hb : b.isWaiting = true) : x.isFull = true :=
  h.resolve_right (not_reached hb)

theorem foldl_add {α : Type} (b : StateBuffer) (received : List (α × GameState)) (origin : Nat) :
    received.foldl (fun b r => (b.add r.2 origin).1) b = b.takeIn (received.map (·.2)) origin := by
  rw [takeIn, List.foldl_map]

theorem Sound.foldl_add {α : Type} (h : b.Sound) (received : List (α × GameState)) (origin : Nat) :
    (received.foldl (fun b r => (b.add r.2 origin).1) b).Sound ∧
      (received.foldl (fun b r => (b.add r.2 origin).1) b).lastTick = b.lastTick := by
  rw [StateBuffer.foldl_add]
  exact ⟨h.takeIn _ origin, congrArg (Option.map _) (lastApplied_takeIn b _ origin)⟩

/-- A selection leads on from what has been reached, and up to the state that it picks. -/
theorem Sound.reached {r : Selection × UInt32 × StateBuffer} (h : b.Sound) (hs : Selects b clock r) :
    (∀ tick, b.Reached tick → r.2.2.Reached tick) ∧
      ∀ x, r.1.current = some x → x.extrapolated = false → r.2.2.Reached x.toTick := by
  have happlied : ∀ {k s}, b.held.get? k = some s → (∀ tick, b.Reached tick → (b.apply s).Reached tick) ∧
      (b.apply s).Reached s.toTick := by
    intro k s hk
    refine ⟨fun tick ⟨last, hlast, hle⟩ => ⟨s.toTick, rfl, ?_⟩, s.toTick, rfl, UInt32.le_refl _⟩
    have hlt := h.ahead hk last hlast
    rw [← h.filed hk] at hlt
    exact UInt32.le_trans hle (UInt32.le_of_lt hlt)
  cases hs with
  | wait => exact ⟨fun _ => id, nofun⟩
  | rewind hlast hlt => exact ⟨fun _ => id, nofun⟩
  | extrapolate hlast hlt =>
    refine ⟨fun _ => id, fun x hx hreal => ?_⟩
    obtain rfl := Option.some.inj hx
    cases hreal
  | full hk hfull =>
    obtain ⟨hold, hnew⟩ := happlied hk
    refine ⟨hold, fun x hx _ => ?_⟩
    obtain rfl := Option.some.inj hx
    exact hnew
  | @follow last skipped s hlast hp =>
    have hmem : s ∈ b.chainFrom last := hp.subset (List.mem_append_right skipped (List.mem_singleton_self s))
    obtain ⟨k, hk⟩ := mem_held_of_mem_chainFrom hmem
    obtain ⟨hold, hnew⟩ := happlied hk
    refine ⟨hold, fun x hx _ => ?_⟩
    obtain rfl := Option.some.inj hx
    exact hnew

end StateBuffer

/-! ### What a world sends -/

namespace World
variable {w : World} {id id' : ConnectionId} {tick tick' : UInt32} {x : GameState}

/-- The states are kept under their ticks, and the current one is full. -/
structure Sound (w : World) : Prop where
  filed : ∀ {tick x}, w.history.get? tick = some x → x.toTick = tick
  whole : w.current.isFull = true

theorem sound_create (n : Nat) : (create n).Sound where
  filed h := by cases h
  whole := rfl

theorem Sound.step (h : w.Sound) : w.step.Sound where
  filed {tick x} hx := by
    simp only [World.step, SortedMap.get?_above, SortedMap.get?_insert] at hx
    split at hx
    · split at hx
      · rename_i htick
        rw [← Option.some.inj hx]
        exact htick
      · exact h.filed hx
    · cases hx
  whole := rfl

theorem Sound.ack (h : w.Sound) (id : ConnectionId) (tick : UInt32) : (w.ack id tick).Sound := ⟨h.filed, h.whole⟩

theorem Sound.forget (h : w.Sound) (id : ConnectionId) : (w.forget id).Sound := ⟨h.filed, h.whole⟩

/-- A tick that is taken for acknowledged is one that has been acknowledged. -/
theorem acked_ack (h : (w.ack id tick).acked.get? id' = some tick') :
    w.acked.get? id' = some tick' ∨ (id = id' ∧ tick = tick') := by
  rw [World.ack, Assoc.get?_insert] at h
  by_cases hid : id = id'
  · subst hid
    rw [if_pos rfl] at h
    have hmax : (if (w.acked.get? id).getD 0 ≤ tick then tick else (w.acked.get? id).getD 0) = tick' :=
      Option.some.inj h
    split at hmax
    · exact Or.inr ⟨rfl, hmax⟩
    · rename_i hlt
      cases hget : w.acked.get? id with
      | none =>
        rw [hget] at hlt
        exact absurd (UInt32.zero_le (a := tick)) hlt
      | some last =>
        rw [hget] at hmax
        exact Or.inl (congrArg _ hmax)
  · rw [if_neg hid] at h
    exact Or.inl h

theorem acked_forget (h : (w.forget id).acked.get? id' = some tick') : w.acked.get? id' = some tick' := by
  rw [World.forget, Assoc.get?_erase] at h
  split at h
  · cases h
  · exact h

theorem acked_foldl_ack {acks : List (ConnectionId × UInt32)}
    (h : (acks.foldl (fun w a => w.ack a.1 a.2) w).acked.get? id = some tick) :
    w.acked.get? id = some tick ∨ (id, tick) ∈ acks := by
  induction acks generalizing w with
  | nil => exact Or.inl h
  | cons a acks ih =>
    rcases ih h with hget | hmem
    · rcases acked_ack hget with hold | ⟨rfl, rfl⟩
      · exact Or.inl hold
      · exact Or.inr List.mem_cons_self
    · exact Or.inr (List.mem_cons_of_mem a hmem)

theorem Sound.foldl_ack (h : w.Sound) (acks : List (ConnectionId × UInt32)) :
    (acks.foldl (fun w a => w.ack a.1 a.2) w).Sound := by
  induction acks generalizing w with
  | nil => exact h
  | cons a acks ih => exact ih (h.ack a.1 a.2)

/-- What a world makes of the news of a server's connections: it forgets some of what was acknowledged. -/
theorem Sound.foldl_noteEvent (h : w.Sound) (events : List NetEvent) : (events.foldl Server.noteEvent w).Sound ∧
    ∀ {id tick}, (events.foldl Server.noteEvent w).acked.get? id = some tick → w.acked.get? id = some tick := by
  induction events generalizing w with
  | nil => exact ⟨h, id⟩
  | cons e events ih =>
    cases e with
    | disconnected id sessionName reason =>
      obtain ⟨hsound, hacked⟩ := ih (h.forget id)
      exact ⟨hsound, fun hget => acked_forget (hacked hget)⟩
    | _ => exact ih h

/-- What is sent to a client that has reached what it is taken to have acknowledged is of use to it. -/
theorem Sound.admits (h : w.Sound) {b : StateBuffer} (hacked : ∀ tick, w.acked.get? id = some tick → b.Reached tick) :
    b.Admits (w.stateFor id) := by
  unfold stateFor
  split
  · rename_i base hbase
    obtain ⟨hget, -⟩ := Option.filter_eq_some_iff.mp hbase
    obtain ⟨tick, htick, hx⟩ := Option.bind_eq_some_iff.mp hget
    right
    show b.Reached base.toTick
    rw [h.filed hx]
    exact hacked tick htick
  · exact Or.inl h.whole

end World
end StateSync
