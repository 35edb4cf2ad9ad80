import StateSync.Proofs.Manager.Calls
import StateSync.Proofs.Manager.Outcome
import StateSync.Proofs.StringTable

/-! What the application is handed. A frame on a channel says something to a side that has a handler for its kind
    (`Registry.read?`); no other event touches what the application has registered or received (`Delivers`). -/

namespace StateSync

namespace Registry
variable {δ α : Type} {r : Registry δ} {t : StringTable} {k : MessageType α} {receive : Option (α → δ)} {id : UInt8}
  {payload : Bytes} {x : α}

/-- What a frame says to a side with these kinds and this name table: nothing, if the frame carries the name table, or
    is of a kind that has no handler or makes no sense to it. -/
def read? (r : Registry δ) (t : StringTable) : Bytes → Option δ
  | [] => none
  | id :: payload =>
    if id = StringTable.bootstrapId then none
    else (t.get? id).bind fun name => (r.dispatch name payload).toOption

/-- The kind is registered, with this handler. -/
def Knows (r : Registry δ) (k : MessageType α) (receive : Option (α → δ)) : Prop :=
  r.kinds.get? k.name = some ⟨k.group, receive.map (handlerOf k)⟩

theorem Knows.dispatch (h : r.Knows k receive) (hdecode : k.decode payload = .ok x) :
    (r.dispatch k.name payload).toOption = receive.map (· x) := by
  unfold Registry.dispatch
  rw [h]
  cases receive with
  | none => rfl
  | some f =>
    show (handlerOf k f payload).toOption = _
    rw [handlerOf, hdecode]
    rfl

theorem read?_of_get? (hid : id ≠ StringTable.bootstrapId) {name : String} (hname : t.get? id = some name)
    (payload : Bytes) : r.read? t (id :: payload) = (r.dispatch name payload).toOption := by
  rw [read?, if_neg hid, hname, Option.bind_some]

/-- Whoever has the table that a frame was made with reads in it what was meant. -/
theorem Knows.read? (h : r.Knows k receive) (codec : k.RoundTrips)
    (htable : r.kinds.get? StringTable.bootstrapName = some ⟨.string, none⟩) (ht : t.Sound)
    (hfind : t.find? k.name = some id) (hencode : k.encode x = .ok payload) :
    r.read? t (Frame.encode id payload) = receive.map (· x) := by
  by_cases hname : k.name = StringTable.bootstrapName
  · -- The frame carries the name table, for which there is no handler.
    rw [hname, ht.find?_bootstrap] at hfind
    obtain rfl := Option.some.inj hfind
    rw [Knows, hname, htable] at h
    obtain ⟨-, hhandler⟩ := Registration.mk.inj (Option.some.inj h)
    obtain rfl : receive = none := Option.map_eq_none_iff.mp hhandler.symm
    rw [Frame.encode, Registry.read?, if_pos rfl, Option.map_none]
  · rw [Frame.encode, read?_of_get? (ht.find?_ne_bootstrapId hname hfind) (ht.get?_of_find? hfind)]
    exact h.dispatch (codec x payload hencode)

end Registry

namespace Manager
variable {μ ι δ : Type} {m m' : Manager ι δ} {w w' : μ} {i : Nat} {h : ι} {p : Peer} {id : ConnectionId}
  {ch : Channel} {bs : Bytes} {e : TransportEvent}

/-! ### Registration -/

theorem registry_intern {name : String} (hi : m.intern name = .ok m') : m'.registry = m.registry := by
  unfold intern at hi
  split at hi
  · split at hi
    · rw [← Except.ok.inj hi]
    · cases hi
  · rw [← Except.ok.inj hi]

/-- A kind that is registered was not before, and the others stay as they are. -/
theorem kinds_register {α : Type} {t : MessageType α} {receive : Option (α → δ)} (h : m.register t receive = .ok m') :
    m.registry.kinds.get? t.name = none ∧
      m'.registry.kinds = m.registry.kinds.insert t.name ⟨t.group, receive.map (Registry.handlerOf t)⟩ := by
  unfold register at h
  split at h
  · cases h
  · rename_i hnew
    split at h
    · cases h
    · rename_i m₁ hm₁
      unfold Registry.register at h
      rw [registry_intern hm₁, if_neg hnew] at h
      rw [← Except.ok.inj h]
      exact ⟨Option.not_isSome_iff_eq_none.mp hnew, rfl⟩

/-! ### Building -/

theorem build_ok_iff {α : Type} {t : MessageType α} {x : α} : m.build t x = .ok bs ↔
    m.registry.isRegistered t.name = true ∧
      ∃ i payload, m.strings.find? t.name = some i ∧ t.encode x = .ok payload ∧ bs = Frame.encode i payload := by
  unfold build messageId
  cases m.registry.isRegistered t.name with
  | false => simp
  | true =>
    cases m.strings.find? t.name with
    | none => by_cases hopen : (!m.isServer && !m.strings.locked) = true <;> simp [hopen]
    | some i =>
      cases t.encode x with
      | error f => simp
      | ok payload => simp [eq_comm]

/-! ### Frames on a channel -/

theorem receiveFrame_bootstrap (m : Manager ι δ) (ch : Channel) (payload : Bytes) :
    m.receiveFrame ch (StringTable.bootstrapId :: payload) = m.receiveStringTable payload := by
  simp [receiveFrame, Frame.split?]

theorem receiveFrame_message {i : UInt8} (hi : i ≠ StringTable.bootstrapId) (m : Manager ι δ) (ch : Channel)
    (payload : Bytes) : m.receiveFrame ch (i :: payload) =
      { m with received := m.received ++ ((m.registry.read? m.strings (i :: payload)).map (ch, ·)).toList } := by
  rw [Registry.read?, if_neg hi, receiveFrame, show Frame.split? (i :: payload) = .ok (i, payload) from rfl]
  dsimp only
  rw [if_neg hi]
  cases m.strings.get? i with
  | none => simp
  | some name =>
    dsimp only
    rw [Option.bind_some]
    cases m.registry.dispatch name payload with
    | error f => simp [Except.toOption]
    | ok x => rfl

/-- The application is handed what a frame says, once and on the channel that the frame came on. -/
theorem received_receiveFrame (m : Manager ι δ) (ch : Channel) (bs : Bytes) : (m.receiveFrame ch bs).received =
    m.received ++ ((m.registry.read? m.strings bs).map (ch, ·)).toList := by
  cases bs with
  | nil => simp [receiveFrame, Frame.split?, Registry.read?]
  | cons i payload =>
    by_cases hi : i = StringTable.bootstrapId
    · subst hi
      obtain ⟨strings, heq, -⟩ := m.receiveStringTable_eq payload
      rw [receiveFrame_bootstrap, heq, Registry.read?, if_pos rfl]
      simp
    · rw [receiveFrame_message hi]

theorem registry_receiveFrame (m : Manager ι δ) (ch : Channel) (bs : Bytes) :
    (m.receiveFrame ch bs).registry = m.registry := by
  obtain ⟨strings, received, heq, -⟩ := m.receiveFrame_eq ch bs
  rw [heq]

/-! ### Events -/

/-- The name table, the kinds and what was received are as they were. -/
structure Leaves (m m' : Manager ι δ) : Prop where
  strings : m'.strings = m.strings
  registry : m'.registry = m.registry
  received : m'.received = m.received

namespace Leaves
variable {m'' : Manager ι δ}

theorem refl (m : Manager ι δ) : Leaves m m := ⟨rfl, rfl, rfl⟩

theorem trans (h : Leaves m m') (h' : Leaves m' m'') : Leaves m m'' :=
  ⟨h'.strings.trans h.strings, h'.registry.trans h.registry, h'.received.trans h.received⟩

theorem teardown (m : Manager ι δ) (id : ConnectionId) (reason : String) : Leaves m (m.teardown id reason) := by
  unfold Manager.teardown
  dsimp only
  split
  · exact ⟨rfl, rfl, rfl⟩
  · split <;> exact ⟨rfl, rfl, rfl⟩

end Leaves

/-- What an event comes to for the application: a frame on a channel is handed to it, a server may lock its name table,
    and nothing else happens that it would have to do with. -/
inductive Delivers (m : Manager ι δ) (w : μ) (i : Nat) (e : TransportEvent) : Manager ι δ → μ → Prop
  | frame {p : Peer} {bs : Bytes} {id : ConnectionId} {ch : Channel} (event : e = .data p bs)
      (found : m.connections.find? i p = some id) (channel : m.channel? id = some ch) :
      Delivers m w i e (m.receiveFrame ch bs) w
  | locks {m' : Manager ι δ} {w' : μ} (server : m.isServer = true)
      (leaves : Leaves { m with strings := m.strings.lock } m') : Delivers m w i e m' w'
  | leaves {m' : Manager ι δ} {w' : μ} (leaves : Leaves m m') : Delivers m w i e m' w'

theorem Delivers.registry (hd : Delivers m w i e m' w') : m'.registry = m.registry := by
  cases hd with
  | frame event found channel => exact registry_receiveFrame m _ _
  | locks server leaves => exact leaves.registry
  | leaves leaves => exact leaves.registry

section
variable [Medium μ ι]

theorem reject_leaves (m : Manager ι δ) (w : μ) (id : ConnectionId) (reason : String) :
    Leaves m (m.reject w id reason).1 := .teardown m id reason

theorem assignName_leaves (m : Manager ι δ) (w : μ) (c : Connection) (name : String) :
    Leaves m (m.assignName w c name).1 := by
  have hmodified : ∀ f, Leaves m (m.modifyConnection c.id f) := fun _ => ⟨rfl, rfl, rfl⟩
  unfold assignName
  dsimp only
  split
  · exact (hmodified _).trans (reject_leaves _ _ c.id _)
  · exact ⟨rfl, rfl, rfl⟩

theorem receiveUsername_leaves (m : Manager ι δ) (w : μ) (id : ConnectionId) (bs : Bytes) :
    Leaves m (m.receiveUsername w id bs).1 := by
  have hasked : ∀ hook, Leaves m { m with hook := hook } := fun _ => ⟨rfl, rfl, rfl⟩
  unfold receiveUsername
  split
  · exact .teardown m id _
  · split
    · exact .teardown m id _
    · split
      · exact .refl m
      · dsimp only
        split
        · rename_i hask
          obtain ⟨hook, rfl⟩ := askHook_eq hask
          exact .trans (hasked hook) (reject_leaves _ w id _)
        · rename_i hask
          obtain ⟨hook, rfl⟩ := askHook_eq hask
          exact (hasked hook).trans (assignName_leaves _ w _ _)

/-- The acknowledgement may have locked the name table. -/
theorem receiveAck_leaves (m : Manager ι δ) (w : μ) (id : ConnectionId) (bs : Bytes) :
    Leaves m (m.receiveAck w id bs).1 ∨ Leaves { m with strings := m.strings.lock } (m.receiveAck w id bs).1 := by
  have hsent : ∀ c name, Leaves { m with strings := m.strings.lock }
      { m.openChannel c name with strings := m.strings.lock } := fun _ _ => ⟨rfl, rfl, rfl⟩
  unfold receiveAck
  split
  · exact Or.inl (.teardown m id _)
  · split
    · exact Or.inl (.refl m)
    · split
      · exact Or.inl (.refl m)
      · split
        · rename_i hsend
          rw [sendStringTable_eq hsend]
          exact Or.inr ((hsent _ _).trans (reject_leaves _ _ id _))
        · rename_i hsend
          rw [sendStringTable_eq hsend]
          exact Or.inr ⟨rfl, rfl, rfl⟩

theorem receiveAssignedName_leaves (m : Manager ι δ) (w : μ) (id : ConnectionId) (bs : Bytes) :
    Leaves m (m.receiveAssignedName w id bs).1 := by
  unfold receiveAssignedName
  split
  · exact .teardown m id _
  · split
    · exact .refl m
    · split
      · exact .teardown m id _
      · exact ⟨rfl, rfl, rfl⟩

theorem handleApproval_leaves (m : Manager ι δ) (w : μ) (i : Nat) (h : ι) (p : Peer) :
    Leaves m (m.handleApproval w i h p).1 := by
  have happrove : ∀ (m : Manager ι δ) (w : μ) (id : ConnectionId), Leaves m (m.approve w h id p).1 := by
    intro m w id
    unfold Manager.approve
    split
    · exact .refl m
    · split
      · exact ⟨rfl, rfl, rfl⟩
      · split <;> exact ⟨rfl, rfl, rfl⟩
  have hentered : ∀ t, Leaves m { m with connections := t } := fun _ => ⟨rfl, rfl, rfl⟩
  unfold handleApproval enroll
  split
  · exact .refl m
  · cases m.connections.find? i p with
    | some id => exact happrove m w id
    | none =>
      dsimp only
      rcases Medium.remoteAddress w h p with ⟨_ | remote, w'⟩
      · exact .refl m
      · exact (hentered _).trans (happrove _ w' _)

theorem handleConnected_leaves (m : Manager ι δ) (w : μ) (i : Nat) (p : Peer) :
    Leaves m (m.handleConnected w i p).1 := by
  unfold handleConnected
  split
  · exact .refl m
  · split
    · exact ⟨rfl, rfl, rfl⟩
    · unfold sendUsername
      split
      · exact reject_leaves m _ _ _
      · exact ⟨rfl, rfl, rfl⟩
    · exact .refl m

theorem handleData_delivers (hm : m.Sound) (w : μ) (i : Nat) (p : Peer) (bs : Bytes) :
    Delivers m w i (.data p bs) (m.handleData w i p bs).1 (m.handleData w i p bs).2 := by
  unfold handleData
  split
  · exact .leaves (.refl m)
  · rename_i id hf
    split
    · rename_i f hpend
      have hcleared : Leaves m (m.clearPending id) := ⟨rfl, rfl, rfl⟩
      cases f with
      | username => exact .leaves (hcleared.trans (receiveUsername_leaves _ w id bs))
      | assignedName => exact .leaves (hcleared.trans (receiveAssignedName_leaves _ w id bs))
      | ack =>
        rcases receiveAck_leaves (m.clearPending id) w id bs with hleaves | hleaves
        · exact .leaves (hcleared.trans hleaves)
        · obtain ⟨c, hget⟩ := (hm id).awaited hpend
          have hin := (hm id).phase hget
          rw [hpend] at hin
          have hserver : m.isServer = true := by
            rw [isServer, hin.of_ack.1]
            rfl
          exact .locks hserver ⟨hleaves.strings, hleaves.registry, hleaves.received⟩
    · split
      · exact .leaves (.refl m)
      · rename_i ch hch
        exact .frame rfl hf hch

/-- A connection that has a channel waits for no frame of the handshake. -/
theorem handleData_of_channel? (hm : m.Sound) (hf : m.connections.find? i p = some id) (hch : m.channel? id = some ch)
    (w : μ) (bs : Bytes) : m.handleData w i p bs = (m.receiveFrame ch bs, w) := by
  obtain ⟨c, hget, hc⟩ := Option.bind_eq_some_iff.mp hch
  have hin := (hm id).phase hget
  cases hpend : m.pending.get? id with
  | none => simp only [handleData, hf, hpend, hch]
  | some f =>
    rw [hpend] at hin
    cases f with
    | username => cases hin.of_username.2.2.symm.trans hc
    | ack => cases hin.of_ack.2.2.symm.trans hc
    | assignedName => cases hin.of_assignedName.2.2.symm.trans hc

theorem handleEvent_delivers (hm : m.Sound) (w : μ) (i : Nat) (h : ι) (e : TransportEvent) :
    Delivers m w i e (m.handleEvent w i h e).1 (m.handleEvent w i h e).2 := by
  cases e with
  | approvalRequest p => exact .leaves (handleApproval_leaves m w i h p)
  | connected p reason => exact .leaves (handleConnected_leaves m w i p)
  | disconnected p reason =>
    refine .leaves ?_
    show Leaves m (m.handleDisconnected i p reason)
    unfold handleDisconnected
    split
    · exact .refl m
    · exact .teardown m _ reason
  | data p bs => exact handleData_delivers hm w i p bs

/-! ### Shutting down -/

theorem shutdown_leaves (m : Manager ι δ) (w : μ) (reason : String) : Leaves m (m.shutdown w reason).1 := by
  have hall : ∀ (ids : List ConnectionId) (m : Manager ι δ), Leaves m (ids.foldl (fun m id => m.teardown id reason) m) := by
    intro ids
    induction ids with
    | nil => exact .refl
    | cons id ids ih => exact fun m => (Leaves.teardown m id reason).trans (ih _)
  unfold shutdown
  split
  · exact .refl m
  · obtain ⟨hstrings, hregistry, hreceived⟩ := hall (m.connections.live.map (·.id)) m
    exact ⟨hstrings, hregistry, hreceived⟩

/-! ### Calls -/

theorem next_delivers (hm : m.Sound) (w : μ) (i : Nat) : Leaves m (m.next w i).1 ∨ ∃ h e w₁, m.transports[i]? = some h ∧
    Medium.poll w h = (some e, w₁) ∧ Delivers m w₁ i e (m.next w i).1 (m.next w i).2 := by
  unfold next
  split
  · exact Or.inl (.refl m)
  · rename_i h hi
    split
    · exact Or.inl (.refl m)
    · rename_i e w₁ hpoll
      exact Or.inr ⟨h, e, w₁, hi, hpoll, handleEvent_delivers hm w₁ i h e⟩

theorem registry_next (hm : m.Sound) (w : μ) (i : Nat) : (m.next w i).1.registry = m.registry := by
  rcases next_delivers hm w i with hleaves | ⟨_, _, _, -, -, hdelivers⟩
  · exact hleaves.registry
  · exact hdelivers.registry

theorem registry_process (hm : m.Sound) (w : μ) : (m.process w).1.registry = m.registry :=
  process_induction (P := fun m' _ => m'.registry = m.registry) hm rfl fun i hm' h => (registry_next hm' _ i).trans h

/-- Only the call that registers a kind does anything to the kinds. -/
theorem registry_perform (hm : m.Sound) (w : μ) (c : Call μ ι δ) : (perform (m, w) c).1.registry = m.registry ∨
    ∃ (α : Type) (t : MessageType α) (receive : Option (α → δ)), c = .register t receive ∧
      m.register t receive = .ok (perform (m, w) c).1 := by
  cases c with
  | start =>
    left
    rw [perform, start]
    repeat' split
    all_goals rfl
  | connect h remote username =>
    left
    rw [perform, connect]
    repeat' split
    all_goals rfl
  | next i => exact Or.inl (registry_next hm w i)
  | process => exact Or.inl (registry_process hm w)
  | disconnect id reason =>
    left
    rw [perform, disconnect]
    split
    · exact (reject_leaves m w id reason).registry
    · rfl
  | shutdown reason => exact Or.inl (shutdown_leaves m w reason).registry
  | register t receive =>
    rw [perform]
    cases hr : m.register t receive with
    | error e => exact Or.inl rfl
    | ok m' => exact Or.inr ⟨_, t, receive, rfl, hr⟩
  | changeSetting key value =>
    left
    obtain ⟨settings, heq⟩ := m.changeSetting_eq w key value
    rw [perform, heq]
  | _ => exact Or.inl rfl

end

end Manager
end StateSync
