import StateSync.Proofs.Manager.Parts

/-! What has happened in the course of a run of a manager: the events it has handled, each with the state it was
    handled in (`Sight`), and what the application was told. What holds at the start, and is kept by a single event
    and by the ends of connections, holds in every run of a server (`Keeps.run`). -/

namespace StateSync

/-- An event of a transport, and what it was handled with. -/
structure Sight (μ ι δ : Type) where
  manager : Manager ι δ
  medium : μ
  place : Nat
  transport : ι
  event : TransportEvent

/-- A manager on its medium, with what has happened so far. -/
structure Chronicle (μ ι δ : Type) where
  manager : Manager ι δ
  medium : μ
  /-- What the application was told and has taken. -/
  taken : List NetEvent
  sights : List (Sight μ ι δ)

variable {μ ι δ : Type}

namespace Chronicle

def create (side : Side) (settings : Settings) (w : μ) : Chronicle μ ι δ := ⟨Manager.create side settings, w, [], []⟩

/-- All that the application was told, also what it has not taken yet. -/
def told (k : Chronicle μ ι δ) : List NetEvent := k.taken ++ k.manager.events

def toldOf (k : Chronicle μ ι δ) (id : ConnectionId) : List NetEvent := k.told.filter (·.isAbout id)

def withMedium (k : Chronicle μ ι δ) (w : μ) : Chronicle μ ι δ := { k with medium := w }

def withState (k : Chronicle μ ι δ) (s : Manager ι δ × μ) : Chronicle μ ι δ := { k with manager := s.1, medium := s.2 }

def takeEvents (k : Chronicle μ ι δ) : Chronicle μ ι δ :=
  { k with manager := k.manager.takeEvents.2, taken := k.taken ++ k.manager.takeEvents.1 }

variable {k : Chronicle μ ι δ} {id j : ConnectionId} {es : List NetEvent}

theorem told_takeEvents (k : Chronicle μ ι δ) : k.takeEvents.told = k.told := by
  rw [told, takeEvents, Manager.takeEvents, List.append_nil, told]

theorem told_withState {s : Manager ι δ × μ} (h : s.1.events = k.manager.events ++ es) :
    (k.withState s).told = k.told ++ es := by
  rw [told, withState, h, told, List.append_assoc]

theorem toldOf_append {k' : Chronicle μ ι δ} (h : k'.told = k.told ++ es) (id : ConnectionId) :
    k'.toldOf id = k.toldOf id ++ es.filter (·.isAbout id) := by
  rw [toldOf, h, List.filter_append, toldOf]

end Chronicle

/-! ### Servers -/

/-- An event was handled by a server, and came from a transport that it had. -/
structure Sight.Fair (x : Sight μ ι δ) : Prop where
  sound : x.manager.Sound
  server : x.manager.isServer = true
  transport : x.manager.transports[x.place]? = some x.transport

namespace Chronicle
variable {k : Chronicle μ ι δ} {s : Manager ι δ × μ}

/-- The chronicle of a server. -/
structure Fair (k : Chronicle μ ι δ) : Prop where
  sound : k.manager.Sound
  server : k.manager.isServer = true
  sights : ∀ x ∈ k.sights, x.Fair

theorem Fair.sight {i : Nat} {h : ι} (hk : k.Fair) (hi : k.manager.transports[i]? = some h) (e : TransportEvent) :
    Sight.Fair ⟨k.manager, k.medium, i, h, e⟩ := ⟨hk.sound, hk.server, hi⟩

theorem fair_create (settings : Settings) (w : μ) : (create .server settings w : Chronicle μ ι δ).Fair :=
  ⟨Manager.sound_create .server settings, rfl, by simp [create]⟩

theorem Fair.of_advances (hk : k.Fair) (hadv : Manager.Advances k.manager s.1) : (k.withState s).Fair :=
  ⟨hadv.sound, by rw [withState, Manager.isServer, hadv.side]; exact hk.server, hk.sights⟩

theorem Fair.takeEvents (hk : k.Fair) : k.takeEvents.Fair :=
  ⟨(Manager.Advances.of_eq hk.sound rfl rfl rfl rfl : Manager.Advances k.manager k.manager.takeEvents.2).sound,
    hk.server, hk.sights⟩

end Chronicle

variable [Medium μ ι]

/-- The manager and the medium when the event has been handled. -/
def Sight.after (x : Sight μ ι δ) : Manager ι δ × μ := x.manager.handleEvent x.medium x.place x.transport x.event

namespace Chronicle

/-- Handles an event of the transport `h` in place `i`. -/
def handle (k : Chronicle μ ι δ) (i : Nat) (h : ι) (e : TransportEvent) : Chronicle μ ι δ :=
  let x : Sight μ ι δ := ⟨k.manager, k.medium, i, h, e⟩
  { k with manager := x.after.1, medium := x.after.2, sights := k.sights ++ [x] }

def drain (k : Chronicle μ ι δ) (i : Nat) (h : ι) : Nat → Chronicle μ ι δ
  | 0 => k
  | most + 1 =>
    match Medium.poll k.medium h with
    | (none, w) => k.withMedium w
    | (some e, w) => ((k.withMedium w).handle i h e).drain i h most

def drainFrom (k : Chronicle μ ι δ) (i : Nat) : List ι → Chronicle μ ι δ
  | [] => k
  | h :: hs => (k.drain i h (Medium.backlog k.medium h)).drainFrom (i + 1) hs

def perform (k : Chronicle μ ι δ) : Manager.Call μ ι δ → Chronicle μ ι δ
  | .next i => (k.manager.transports[i]?).elim k fun h => k.drain i h 1
  | .process => k.drainFrom 0 k.manager.transports
  | .takeEvents => k.takeEvents
  | c => k.withState (Manager.perform (k.manager, k.medium) c)

def run (k : Chronicle μ ι δ) (calls : List (Manager.Call μ ι δ)) : Chronicle μ ι δ := calls.foldl perform k

/-! ### The manager of a chronicle -/

theorem state_drain (k : Chronicle μ ι δ) (i : Nat) (h : ι) (most : Nat) :
    ((k.drain i h most).manager, (k.drain i h most).medium) = k.manager.drain k.medium i h most := by
  induction most generalizing k with
  | zero => rfl
  | succ most ih =>
    rw [drain, Manager.drain]
    rcases Medium.poll k.medium h with ⟨_ | e, w⟩
    · rfl
    · exact ih _

theorem state_drainFrom (k : Chronicle μ ι δ) (i : Nat) (hs : List ι) :
    ((k.drainFrom i hs).manager, (k.drainFrom i hs).medium) = k.manager.drainFrom k.medium i hs := by
  induction hs generalizing k i with
  | nil => rfl
  | cons h hs ih =>
    rw [drainFrom, Manager.drainFrom, ih]
    rw [← state_drain]

theorem state_perform (k : Chronicle μ ι δ) (c : Manager.Call μ ι δ) :
    ((k.perform c).manager, (k.perform c).medium) = Manager.perform (k.manager, k.medium) c := by
  cases c with
  | next i =>
    rw [perform, Manager.perform, Manager.next]
    cases k.manager.transports[i]? with
    | none => rfl
    | some h =>
      rw [Option.elim_some, drain]
      dsimp only
      rcases Medium.poll k.medium h with ⟨_ | e, w⟩ <;> rfl
  | process => exact state_drainFrom k 0 k.manager.transports
  | _ => rfl

theorem taken_drain (k : Chronicle μ ι δ) (i : Nat) (h : ι) (most : Nat) : (k.drain i h most).taken = k.taken := by
  induction most generalizing k with
  | zero => rfl
  | succ most ih =>
    rw [drain]
    rcases Medium.poll k.medium h with ⟨_ | e, w⟩
    · rfl
    · exact ih _

theorem taken_drainFrom (k : Chronicle μ ι δ) (i : Nat) (hs : List ι) : (k.drainFrom i hs).taken = k.taken := by
  induction hs generalizing k i with
  | nil => rfl
  | cons h hs ih => exact (ih _ _).trans (taken_drain k i h _)

/-- Whatever a call other than to take the events adds to them has been told. -/
theorem told_perform {k : Chronicle μ ι δ} {x : Manager.Call μ ι δ} {es : List NetEvent} (hx : x ≠ .takeEvents)
    (he : (Manager.perform (k.manager, k.medium) x).1.events = k.manager.events ++ es) :
    (k.perform x).told = k.told ++ es := by
  have hmanager : (k.perform x).manager = (Manager.perform (k.manager, k.medium) x).1 :=
    congrArg Prod.fst (state_perform k x)
  have htaken : (k.perform x).taken = k.taken := by
    cases x with
    | next i =>
      rw [perform]
      cases k.manager.transports[i]? with
      | none => rfl
      | some h => exact taken_drain k i h 1
    | process => exact taken_drainFrom k 0 k.manager.transports
    | takeEvents => exact absurd rfl hx
    | _ => rfl
  rw [told, hmanager, htaken, he, told, List.append_assoc]

/-- A chronicle tells of the run of its manager. -/
theorem state_run (k : Chronicle μ ι δ) (calls : List (Manager.Call μ ι δ)) :
    ((k.run calls).manager, (k.run calls).medium) = Manager.run (k.manager, k.medium) calls := by
  induction calls generalizing k with
  | nil => rfl
  | cons c calls ih =>
    rw [run, List.foldl_cons, Manager.run, List.foldl_cons, ← state_perform]
    exact ih (k.perform c)

end Chronicle

/-! ### What is kept -/

theorem Sight.Fair.concludes {x : Sight μ ι δ} (h : x.Fair) :
    x.manager.Concludes x.medium x.place x.transport x.event x.after.1 x.after.2 :=
  Manager.handleEvent_concludes h.sound h.transport x.medium x.event

namespace Chronicle
variable {k : Chronicle μ ι δ} {i : Nat} {h : ι} {P : Chronicle μ ι δ → Prop}

theorem Fair.handle (hk : k.Fair) (hi : k.manager.transports[i]? = some h) (e : TransportEvent) :
    (k.handle i h e).Fair ∧ (k.handle i h e).manager.transports = k.manager.transports := by
  have hx := hk.sight hi e
  obtain ⟨id, hsettles, -⟩ := hx.concludes
  refine ⟨⟨hk.sound.of_settles hsettles, ?_, fun x hmem => ?_⟩, hsettles.transports⟩
  · rw [Chronicle.handle, Manager.isServer, hsettles.side]
    exact hk.server
  · rcases List.mem_append.mp hmem with hmem | hmem
    · exact hk.sights x hmem
    · exact List.mem_singleton.mp hmem ▸ hx

theorem told_handle {es : List NetEvent} {e : TransportEvent}
    (h' : (k.handle i h e).manager.events = k.manager.events ++ es) : (k.handle i h e).told = k.told ++ es := by
  rw [told, h', told, List.append_assoc]
  rfl

/-- What the handling of an event comes to for the connections, and what the application is told then. -/
theorem Fair.handle_outcome (hk : k.Fair) (hi : k.manager.transports[i]? = some h) (e : TransportEvent) :
    let k' := k.handle i h e
    ∃ id es, Manager.Outcome k.manager k.medium i h e k'.manager k'.medium id es ∧
      Manager.Settles k.manager k'.manager id ∧ k'.manager.events = k.manager.events ++ es ∧
      ∀ j, k'.toldOf j = k.toldOf j ++ if id = j then es else [] := by
  have hx := hk.sight hi e
  obtain ⟨id, hsettles, es, hevents, houtcome⟩ := hx.concludes
  refine ⟨id, es, houtcome, hsettles, hevents, fun j => ?_⟩
  rw [toldOf_append (told_handle hevents), filter_isAbout (houtcome.isAbout hk.sound hk.server)]

/-- Something is kept while a server handles events. -/
structure KeepsEvents (P : Chronicle μ ι δ → Prop) : Prop where
  poll : ∀ {k} h, k.Fair → P k → P (k.withMedium (Medium.poll k.medium h).2)
  handle : ∀ {k i h} e, k.Fair → P k → k.manager.transports[i]? = some h → P (k.handle i h e)

theorem KeepsEvents.drain (hP : KeepsEvents P) (hk : k.Fair) (hi : k.manager.transports[i]? = some h) (most : Nat)
    (hp : P k) : let k' := k.drain i h most
    k'.Fair ∧ k'.manager.transports = k.manager.transports ∧ P k' := by
  induction most generalizing k with
  | zero => exact ⟨hk, rfl, hp⟩
  | succ most ih =>
    have hpoll := hP.poll h hk hp
    rw [Chronicle.drain]
    rcases hevent : Medium.poll k.medium h with ⟨_ | e, w⟩
    · rw [hevent] at hpoll
      exact ⟨⟨hk.sound, hk.server, hk.sights⟩, rfl, hpoll⟩
    · rw [hevent] at hpoll
      have hk' : (k.withMedium w).Fair := ⟨hk.sound, hk.server, hk.sights⟩
      obtain ⟨hfair, htransports⟩ := hk'.handle hi e
      obtain ⟨hfair', htransports', hp'⟩ := ih hfair (htransports ▸ hi) (hP.handle e hk' hpoll hi)
      exact ⟨hfair', htransports'.trans htransports, hp'⟩

theorem KeepsEvents.drainFrom (hP : KeepsEvents P) {hs : List ι} (hk : k.Fair)
    (hdrop : k.manager.transports.drop i = hs) (hp : P k) :
    (k.drainFrom i hs).Fair ∧ P (k.drainFrom i hs) := by
  induction hs generalizing k i with
  | nil => exact ⟨hk, hp⟩
  | cons h hs ih =>
    obtain ⟨hi, htail⟩ := Manager.place_of_drop hdrop
    obtain ⟨hk', htransports, hp'⟩ := hP.drain hk hi (Medium.backlog k.medium h) hp
    exact ih hk' (htransports ▸ htail) hp'

theorem KeepsEvents.perform (hP : KeepsEvents P) (hk : k.Fair) (hp : P k) (htake : P k.takeEvents)
    (c : Manager.Call μ ι δ) (haside : c.IsAside → P (k.withState (Manager.perform (k.manager, k.medium) c))) :
    (k.perform c).Fair ∧ P (k.perform c) := by
  have hother : c.IsAside → (k.withState (Manager.perform (k.manager, k.medium) c)).Fair := fun _ =>
    hk.of_advances (Manager.perform_advances hk.sound k.medium c)
  cases c with
  | next i =>
    rw [Chronicle.perform]
    cases hi : k.manager.transports[i]? with
    | none => exact ⟨hk, hp⟩
    | some h =>
      obtain ⟨hk', -, hp'⟩ := hP.drain hk hi 1 hp
      exact ⟨hk', hp'⟩
  | process => exact hP.drainFrom hk rfl hp
  | takeEvents => exact ⟨hk.takeEvents, htake⟩
  | _ => exact ⟨hother trivial, haside trivial⟩

/-- Something is kept by a server, whatever its medium does. -/
structure Keeps (P : Chronicle μ ι δ → Prop) : Prop where
  handle : ∀ {k i h} e, k.Fair → P k → k.manager.transports[i]? = some h → P (k.handle i h e)
  parts : ∀ {k s es}, k.Fair → P k → Manager.Parts k.manager s.1 es → P (k.withState s)
  takeEvents : ∀ {k}, P k → P k.takeEvents

theorem Keeps.keepsEvents (hP : Keeps P) : KeepsEvents P :=
  ⟨fun {k} _ hk hp => hP.parts (s := (k.manager, _)) hk hp (.of_eq (.refl hk.sound) rfl rfl), hP.handle⟩

/-- What is kept by events, and by all else that is done to a server, is kept by every run. -/
theorem KeepsEvents.run (hP : KeepsEvents P) (htake : ∀ {k}, P k → P k.takeEvents)
    (haside : ∀ {k c}, k.Fair → P k → c.IsAside → P (k.withState (Manager.perform (k.manager, k.medium) c)))
    (hk : k.Fair) (hp : P k) (calls : List (Manager.Call μ ι δ)) : (k.run calls).Fair ∧ P (k.run calls) := by
  induction calls generalizing k with
  | nil => exact ⟨hk, hp⟩
  | cons c calls ih =>
    obtain ⟨hk', hp'⟩ := hP.perform hk hp (htake hp) c (haside hk hp)
    exact ih hk' hp'

theorem Keeps.aside {c : Manager.Call μ ι δ} (hP : Keeps P) (hk : k.Fair) (hp : P k) (hc : c.IsAside) :
    P (k.withState (Manager.perform (k.manager, k.medium) c)) := by
  obtain ⟨es, hparts⟩ := Manager.perform_parts hk.sound hk.server k.medium hc
  exact hP.parts hk hp hparts

theorem Keeps.perform (hP : Keeps P) (hk : k.Fair) (hp : P k) (c : Manager.Call μ ι δ) :
    (k.perform c).Fair ∧ P (k.perform c) := hP.keepsEvents.perform hk hp (hP.takeEvents hp) c (hP.aside hk hp)

theorem Keeps.run (hP : Keeps P) (hk : k.Fair) (hp : P k) (calls : List (Manager.Call μ ι δ)) :
    (k.run calls).Fair ∧ P (k.run calls) := hP.keepsEvents.run hP.takeEvents hP.aside hk hp calls

end Chronicle
end StateSync
