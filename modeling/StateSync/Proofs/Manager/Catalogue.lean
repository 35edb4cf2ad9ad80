import StateSync.Proofs.Manager.Chronicle
import StateSync.Proofs.Manager.Frames

/-! The kinds of messages that a server has registered, and its name table. Registering a kind changes both or neither
    (`enlist_eq`), and nothing else that happens to a server changes what either of them says: the table is locked when
    the first acknowledgement is handled, from when on both stay as they are (`run_catalogue`). -/

namespace StateSync

namespace Assoc
variable {κ α : Type} [DecidableEq κ] {m : Assoc κ α} {k k' : κ} {x : α}

theorem contains_insert : (m.insert k x).contains k' = true ↔ k' = k ∨ m.contains k' = true := by
  rw [contains, get?_insert, contains]
  by_cases hk : k = k'
  · simp [hk]
  · have hk' : ¬ k' = k := fun h => hk h.symm
    simp [hk, hk']

end Assoc

namespace Manager
variable {μ ι δ α : Type} {m m' m'' : Manager ι δ} {w : μ} {i : Nat} {h : ι} {id : ConnectionId} {c : Connection}
  {e : TransportEvent} {t : MessageType α} {receive : Option (α → δ)}

/-! ### Registration -/

/-- The two steps of making a kind known, on a manager that keeps what the first has done if the second fails. -/
def enlist (m : Manager ι δ) (t : MessageType α) (receive : Option (α → δ)) : Except NetError Unit × Manager ι δ :=
  if m.registry.isRegistered t.name then (.error (.duplicateMessage t.name), m)
  else
    match m.intern t.name with
    | .error e => (.error e, m)
    | .ok m' =>
      match m'.registry.register t receive with
      | .error e => (.error e, m')
      | .ok registry => (.ok (), { m' with registry := registry })

/-- Once a kind is in the name table it is registered, so no registration is ever half done. -/
theorem enlist_eq (m : Manager ι δ) (t : MessageType α) (receive : Option (α → δ)) : m.enlist t receive =
    match m.register t receive with
    | .ok m' => (.ok (), m')
    | .error e => (.error e, m) := by
  unfold enlist register
  split
  · rfl
  · rename_i hnew
    cases hi : m.intern t.name with
    | error e => rfl
    | ok m' =>
      have hnew' : ¬ m'.registry.isRegistered t.name = true := by rwa [registry_intern hi]
      simp only [Registry.register, if_neg hnew']

/-- The kinds of a server and its name table agree. -/
structure Catalogued (m : Manager ι δ) : Prop where
  table : m.strings.Sound
  names : ∀ name, m.registry.isRegistered name = true ↔ name ∈ m.strings.names

theorem catalogued_create (settings : Settings) : (create .server settings : Manager ι δ).Catalogued := by
  refine ⟨StringTable.sound_create, fun name => ?_⟩
  show (Assoc.empty.insert _ _).contains name = true ↔ name ∈ [StringTable.bootstrapName]
  rw [Assoc.contains_insert, List.mem_singleton]
  exact or_iff_left Bool.false_ne_true

/-- A kind is registered if its name is new and there is room for it in a table that is not locked. The name gets the
    place behind all others. -/
theorem Catalogued.register_eq_ok_iff (hm : m.Catalogued) (hs : m.isServer = true) : m.register t receive = .ok m' ↔
    (t.name ∉ m.strings.names ∧ m.strings.locked = false ∧ m.strings.size < StringTable.capacity) ∧
      m' = { m with
        strings := { m.strings with names := m.strings.names ++ [t.name] }
        registry := ⟨m.registry.kinds.insert t.name ⟨t.group, receive.map (Registry.handlerOf t)⟩⟩ } := by
  have hnames := hm.names t.name
  by_cases hmem : t.name ∈ m.strings.names
  · simp [register, hnames.mpr hmem, hmem]
  · have hnew : ¬ m.registry.isRegistered t.name = true := fun hr => hmem (hnames.mp hr)
    have hadd := StringTable.add_of_not_mem hmem
    cases hlocked : m.strings.locked with
    | true => simp [register, intern, hs, hnew, hadd, hlocked]
    | false =>
      by_cases hroom : m.strings.size < StringTable.capacity
      · simp [register, intern, Registry.register, hs, hnew, hadd, hlocked, hmem, hroom, Nat.not_le.mpr hroom,
          eq_comm]
      · simp [register, intern, hs, hnew, hadd, hlocked, hroom, Nat.not_lt.mp hroom]

theorem Catalogued.register (hm : m.Catalogued) (hs : m.isServer = true) (hr : m.register t receive = .ok m') :
    m'.Catalogued := by
  obtain ⟨⟨hnew, hopen, hroom⟩, rfl⟩ := (hm.register_eq_ok_iff hs).mp hr
  refine ⟨?_, fun name => ?_⟩
  · exact hm.table.add ((StringTable.add_of_not_mem hnew).trans (by simp [hopen, Nat.not_le.mpr hroom]; rfl))
  · show (Assoc.insert _ _ _).contains name = true ↔ name ∈ m.strings.names ++ [t.name]
    rw [Assoc.contains_insert, List.mem_append, List.mem_singleton, or_comm]
    exact or_congr_left (hm.names name)

/-! ### Everything else -/

/-- What becomes of the kinds and the name table. -/
inductive Revises (m m' : Manager ι δ) : Prop
  | keeps (strings : m'.strings = m.strings) (registry : m'.registry = m.registry)
  | locks (strings : m'.strings = m.strings.lock) (registry : m'.registry = m.registry)
  | registers {α : Type} (t : MessageType α) (receive : Option (α → δ)) (done : m.register t receive = .ok m')

theorem Catalogued.revises (hm : m.Catalogued) (hs : m.isServer = true) (hr : Revises m m') : m'.Catalogued := by
  cases hr with
  | keeps strings registry => exact ⟨strings ▸ hm.table, by rw [strings, registry]; exact hm.names⟩
  | locks strings registry => exact ⟨strings ▸ hm.table.lock, by rw [strings, registry]; exact hm.names⟩
  | registers t receive done => exact hm.register hs done

/-- What a later state has of an earlier one: all names at their places, and all that there was if the table was locked
    then. -/
structure Enshrines (m m' : Manager ι δ) : Prop where
  names : m.strings.names <+: m'.strings.names
  locked : m.strings.locked = true → m'.strings = m.strings ∧ m'.registry = m.registry

theorem Enshrines.refl (m : Manager ι δ) : Enshrines m m := ⟨List.prefix_rfl, fun _ => ⟨rfl, rfl⟩⟩

theorem Enshrines.trans (h : Enshrines m m') (h' : Enshrines m' m'') : Enshrines m m'' where
  names := h.names.trans h'.names
  locked hl := by
    obtain ⟨hstrings, hregistry⟩ := h.locked hl
    obtain ⟨hstrings', hregistry'⟩ := h'.locked (hstrings ▸ hl)
    exact ⟨hstrings'.trans hstrings, hregistry'.trans hregistry⟩

theorem Revises.enshrines (hr : Revises m m') (hm : m.Catalogued) (hs : m.isServer = true) : Enshrines m m' := by
  cases hr with
  | keeps strings registry => exact ⟨strings ▸ List.prefix_rfl, fun _ => ⟨strings, registry⟩⟩
  | locks strings registry =>
    exact ⟨strings ▸ List.prefix_rfl, fun hl => ⟨strings.trans (StringTable.lock_of_locked hl), registry⟩⟩
  | registers t receive done =>
    obtain ⟨⟨-, hopen, -⟩, rfl⟩ := (hm.register_eq_ok_iff hs).mp done
    exact ⟨List.prefix_append _ _, fun hl => (nomatch hopen.symm.trans hl)⟩

/-- Whatever a server has registered it can build, if the kind's own encoding has no fault. -/
theorem Catalogued.build_eq (hm : m.Catalogued) (hr : m.registry.isRegistered t.name = true) : ∃ place,
    m.strings.find? t.name = some place ∧ m.strings.get? place = some t.name ∧
      ∀ x, m.build t x = (t.encode x).map (Frame.encode place) := by
  obtain ⟨place, hplace⟩ := StringTable.exists_find? ((hm.names t.name).mp hr)
  refine ⟨place, hplace, hm.table.get?_of_find? hplace, fun x => ?_⟩
  simp only [build, messageId, hr, hplace]
  cases t.encode x <;> rfl

section
variable [Medium μ ι]

/-- The name table that a peer is sent is locked. -/
theorem strings_receiveAck (live : m.connections.get? id = some c) {name : String} (hname : c.session = some name)
    (w : μ) : (m.receiveAck w id (textBytes ackText)).1.strings = m.strings.lock := by
  unfold receiveAck
  rw [if_neg (fun hne => hne rfl), live]
  dsimp only
  rw [hname]
  dsimp only
  split
  · rename_i hsend
    rw [sendStringTable_eq hsend]
    exact (teardown_keeps _ id _).2.1
  · rename_i hsend
    rw [sendStringTable_eq hsend]
    rfl

theorem strings_of_acks (hm : m.Sound) (hack : m.Acks i e id c) (w : μ) (h : ι) :
    (m.handleEvent w i h e).1.strings = m.strings.lock := by
  obtain ⟨live, rfl, awaited, rfl⟩ := hack
  have hin := (hm id).phase live
  rw [awaited] at hin
  obtain ⟨-, ⟨name, hname⟩, -⟩ := hin.of_ack
  simp only [handleEvent, handleData, (hm id).entered live, awaited, receiveHandshake]
  exact strings_receiveAck (m := m.clearPending id) live hname w

/-- No other event locks the name table of a server, or does anything else to it. -/
theorem strings_of_not_acks (hm : m.Sound) (hs : m.isServer = true) (hack : ∀ id c, ¬ m.Acks i e id c) (w : μ) (h : ι) :
    (m.handleEvent w i h e).1.strings = m.strings := by
  cases e with
  | approvalRequest p => exact (handleApproval_leaves m w i h p).strings
  | connected p reason => exact (handleConnected_leaves m w i p).strings
  | disconnected p reason =>
    show (m.handleDisconnected i p reason).strings = m.strings
    unfold handleDisconnected
    split
    · rfl
    · exact (teardown_keeps m _ reason).2.1
  | data p bs =>
    show (m.handleData w i p bs).1.strings = m.strings
    unfold handleData
    split
    · rfl
    · rename_i id hf
      obtain ⟨c, live, hplace, rfl⟩ := (hm id).found hf
      split
      · rename_i f awaited
        cases f with
        | username => exact (receiveUsername_leaves (m.clearPending id) w id bs).strings
        | assignedName => exact (receiveAssignedName_leaves (m.clearPending id) w id bs).strings
        | ack =>
          have hne : bs ≠ textBytes ackText := fun heq => hack id c ⟨live, hplace, awaited, by rw [heq]⟩
          show ((m.clearPending id).receiveAck w id bs).1.strings = m.strings
          rw [receiveAck, if_pos hne]
          exact (teardown_keeps (m.clearPending id) id _).2.1
      · split
        · rfl
        · rename_i ch _
          obtain ⟨strings, received, heq, hstrings⟩ := m.receiveFrame_eq ch bs
          rw [heq]
          exact hstrings hs

theorem handleEvent_revises (hm : m.Sound) (hs : m.isServer = true) (w : μ) (i : Nat) (h : ι) (e : TransportEvent) :
    Revises m (m.handleEvent w i h e).1 := by
  have hregistry := (handleEvent_delivers hm w i h e).registry
  by_cases hack : ∃ id c, m.Acks i e id c
  · obtain ⟨id, c, hack⟩ := hack
    exact .locks (strings_of_acks hm hack w h) hregistry
  · exact .keeps (strings_of_not_acks hm hs (fun id c ha => hack ⟨id, c, ha⟩) w h) hregistry

/-- No other call does anything to them, but a registration. -/
theorem perform_aside (hs : m.isServer = true) (w : μ) {x : Call μ ι δ} (hx : x.IsAside) :
    let m' := (perform (m, w) x).1
    (m'.strings = m.strings ∧ m'.registry = m.registry) ∨
      ∃ (α : Type) (t : MessageType α) (receive : Option (α → δ)), m.register t receive = .ok m' := by
  cases x with
  | start =>
    left
    rw [perform, start]
    repeat' split
    all_goals exact ⟨rfl, rfl⟩
  | connect h remote username =>
    left
    rw [perform, connect, if_pos hs]
    exact ⟨rfl, rfl⟩
  | next i => cases hx
  | process => cases hx
  | disconnect id reason =>
    left
    rw [perform, disconnect]
    split
    · exact ⟨(reject_leaves m w id reason).strings, (reject_leaves m w id reason).registry⟩
    · exact ⟨rfl, rfl⟩
  | send id t x => exact Or.inl ⟨rfl, rfl⟩
  | broadcast t x => exact Or.inl ⟨rfl, rfl⟩
  | shutdown reason => exact Or.inl ⟨(shutdown_leaves m w reason).strings, (shutdown_leaves m w reason).registry⟩
  | register t receive =>
    rw [perform]
    cases hr : m.register t receive with
    | error e => exact Or.inl ⟨rfl, rfl⟩
    | ok m' => exact Or.inr ⟨_, t, receive, hr⟩
  | setHook hook => exact Or.inl ⟨rfl, rfl⟩
  | changeSetting key value =>
    left
    obtain ⟨settings, heq⟩ := m.changeSetting_eq w key value
    rw [perform, heq]
    exact ⟨rfl, rfl⟩
  | takeEvents => cases hx
  | takeReceived => exact Or.inl ⟨rfl, rfl⟩
  | outside w' => exact Or.inl ⟨rfl, rfl⟩

end
end Manager

namespace Chronicle
variable {μ ι δ : Type} {k : Chronicle μ ι δ} {m₀ : Manager ι δ}

/-- A server has handled an acknowledgement that a connection waited for. -/
def Acked (k : Chronicle μ ι δ) : Prop := ∃ x ∈ k.sights, ∃ id c, x.manager.Acks x.place x.event id c

/-- The kinds and the name table agree, the table is locked since the first acknowledgement, and what was there at an
    earlier moment is enshrined. -/
structure Catalogued (m₀ : Manager ι δ) (k : Chronicle μ ι δ) : Prop where
  manager : k.manager.Catalogued
  locked : k.manager.strings.locked = true ↔ k.Acked
  enshrined : m₀.Enshrines k.manager

theorem catalogued_create (settings : Settings) (w : μ) :
    (create .server settings w : Chronicle μ ι δ).Catalogued (Manager.create .server settings) := by
  refine ⟨Manager.catalogued_create settings, ⟨fun hl => (nomatch hl), ?_⟩, .refl _⟩
  rintro ⟨x, hx, -⟩
  cases hx

variable [Medium μ ι]

theorem keepsEvents_catalogued : KeepsEvents (Catalogued m₀ : Chronicle μ ι δ → Prop) where
  poll _ _ hc := ⟨hc.manager, hc.locked, hc.enshrined⟩
  handle {k i h} e hk hc _ := by
    have hrevises := Manager.handleEvent_revises hk.sound hk.server k.medium i h e
    have hacked : (k.handle i h e).Acked ↔ k.Acked ∨ ∃ id c, k.manager.Acks i e id c := by
      simp only [Acked, Chronicle.handle, List.mem_append, List.mem_singleton, or_and_right, exists_or,
        exists_eq_left]
    refine ⟨hc.manager.revises hk.server hrevises, ?_, hc.enshrined.trans (hrevises.enshrines hc.manager hk.server)⟩
    rw [hacked, ← hc.locked]
    show (k.manager.handleEvent k.medium i h e).1.strings.locked = true ↔ _
    by_cases hack : ∃ id c, k.manager.Acks i e id c
    · obtain ⟨id, c, hacks⟩ := hack
      rw [Manager.strings_of_acks hk.sound hacks]
      exact iff_of_true rfl (Or.inr ⟨id, c, hacks⟩)
    · rw [Manager.strings_of_not_acks hk.sound hk.server fun id c hacks => hack ⟨id, c, hacks⟩]
      exact (or_iff_left hack).symm

theorem Catalogued.aside {x : Manager.Call μ ι δ} (hk : k.Fair) (hc : k.Catalogued m₀) (hx : x.IsAside) :
    (k.withState (Manager.perform (k.manager, k.medium) x)).Catalogued m₀ := by
  rcases Manager.perform_aside hk.server k.medium hx with ⟨hstrings, hregistry⟩ | ⟨α, t, receive, hdone⟩
  · have hrevises : Manager.Revises k.manager (Manager.perform (k.manager, k.medium) x).1 := .keeps hstrings hregistry
    refine ⟨hc.manager.revises hk.server hrevises, ?_, hc.enshrined.trans (hrevises.enshrines hc.manager hk.server)⟩
    rw [withState, hstrings]
    exact hc.locked
  · have hrevises : Manager.Revises k.manager (Manager.perform (k.manager, k.medium) x).1 := .registers t receive hdone
    refine ⟨hc.manager.revises hk.server hrevises, ?_, hc.enshrined.trans (hrevises.enshrines hc.manager hk.server)⟩
    obtain ⟨-, heq⟩ := (hc.manager.register_eq_ok_iff hk.server).mp hdone
    rw [withState, heq]
    exact hc.locked

theorem Catalogued.run (hk : k.Fair) (hc : k.Catalogued m₀) (calls : List (Manager.Call μ ι δ)) :
    (k.run calls).Fair ∧ (k.run calls).Catalogued m₀ := by
  refine keepsEvents_catalogued.run (fun hc => ?_) Catalogued.aside hk hc calls
  exact ⟨⟨hc.manager.table, hc.manager.names⟩, hc.locked, ⟨hc.enshrined.names, hc.enshrined.locked⟩⟩

/-- After any calls on a server, and whatever its transports report: the kinds that are registered are those in the name
    table. To register a kind either does all of it, which is so exactly for a new name while there is room in a table
    that is not locked, or changes nothing. The table is locked exactly if an acknowledgement was handled, in answer to
    which it is sent; from then on whatever is called or reported leaves both as they are, and no name ever gets another
    place. And a registered kind is built with the place of its name, unless its own encoding fails. -/
theorem run_catalogue (settings : Settings) (w : μ) (calls : List (Manager.Call μ ι δ)) :
    let k : Chronicle μ ι δ := (create .server settings w).run calls
    let m := k.manager
    (∀ name, m.registry.isRegistered name = true ↔ name ∈ m.strings.names) ∧
    (∀ (α : Type) (t : MessageType α) (receive : Option (α → δ)),
      ((∃ m', m.register t receive = .ok m') ↔
        t.name ∉ m.strings.names ∧ m.strings.locked = false ∧ m.strings.size < StringTable.capacity) ∧
      m.enlist t receive = match m.register t receive with
        | .ok m' => (.ok (), m')
        | .error e => (.error e, m)) ∧
    (m.strings.locked = true ↔ ∃ x ∈ k.sights, ∃ id c, x.manager.Acks x.place x.event id c) ∧
    (∀ later, let m' := (k.run later).manager
      (m.strings.locked = true → m'.strings = m.strings ∧ m'.registry = m.registry) ∧
      ∀ name place, m.strings.find? name = some place → m'.strings.find? name = some place) ∧
    ∀ (α : Type) (t : MessageType α), m.registry.isRegistered t.name = true → ∃ place,
      m.strings.find? t.name = some place ∧ ∀ x, m.build t x = (t.encode x).map (Frame.encode place) := by
  intro k m
  obtain ⟨hk, hc⟩ := (catalogued_create (δ := δ) settings w).run (fair_create settings w) calls
  refine ⟨hc.manager.names, fun α t receive => ⟨?_, m.enlist_eq t receive⟩, hc.locked, fun later => ?_, fun α t hr => ?_⟩
  · constructor
    · rintro ⟨m', hr⟩
      exact ((hc.manager.register_eq_ok_iff hk.server).mp hr).1
    · intro hnew
      exact ⟨_, (hc.manager.register_eq_ok_iff hk.server).mpr ⟨hnew, rfl⟩⟩
  · have hstart : k.Catalogued m := ⟨hc.manager, hc.locked, .refl m⟩
    obtain ⟨-, hlater⟩ := hstart.run hk later
    exact ⟨hlater.enshrined.locked, fun name place => StringTable.find?_of_prefix hlater.enshrined.names⟩
  · obtain ⟨place, hplace, -, hbuild⟩ := hc.manager.build_eq hr
    exact ⟨place, hplace, hbuild⟩

end Chronicle
end StateSync
