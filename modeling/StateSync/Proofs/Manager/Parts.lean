import StateSync.Proofs.Manager.Calls
import StateSync.Proofs.Manager.Outcome

/-! What a server does to its connections without an event of a transport: it ends some of them, and tells the
    application of those that had a channel (`perform_parts`). -/

namespace StateSync

/-- What the application is told of a connection. A failure to connect is not told of one. -/
def NetEvent.isAbout (e : NetEvent) (id : ConnectionId) : Bool :=
  match e with
  | .connected j _ _ => j = id
  | .disconnected j _ _ => j = id
  | .connectFailed _ _ => false

theorem NetEvent.isAbout_inj {e : NetEvent} {id j : ConnectionId} (h : e.isAbout id = true) (hj : e.isAbout j = true) :
    id = j := by
  cases e <;> simp_all [NetEvent.isAbout]

/-- Events about one connection are not about another. -/
theorem filter_isAbout {es : List NetEvent} {id : ConnectionId} (h : ∀ e ∈ es, e.isAbout id = true)
    (j : ConnectionId) : es.filter (·.isAbout j) = if id = j then es else [] := by
  split
  · rename_i hj
    exact List.filter_eq_self.mpr (hj ▸ h)
  · rename_i hj
    exact List.filter_eq_nil_iff.mpr fun e he habout => hj (NetEvent.isAbout_inj (h e he) habout)

namespace Manager
variable {μ ι δ : Type} [Medium μ ι] {m m' m'' : Manager ι δ} {w w' : μ} {i : Nat} {h : ι} {e : TransportEvent}
  {id : ConnectionId} {c : Connection} {es es' : List NetEvent}

/-- A server says farewell in one way only. -/
theorem farewell_eq (hs : m.isServer = true) (c : Connection) (reason : String) :
    m.farewell c reason = c.channel.map fun ch => .disconnected c.id ch.sessionName reason := by
  rw [farewell, hs]
  cases c.channel <;> rfl

theorem isAbout_farewell (hm : m.Sound) (hs : m.isServer = true) (live : m.connections.get? id = some c)
    (reason : String) : ∀ e ∈ (m.farewell c reason).toList, e.isAbout id = true := by
  obtain rfl := (hm id).own live
  rw [farewell_eq hs]
  intro e he
  obtain ⟨ch, -, rfl⟩ := Option.map_eq_some_iff.mp (Option.mem_toList.mp he)
  simp [NetEvent.isAbout]

theorem Outcome.isAbout (h : Outcome m w i h e m' w' id es) (hm : m.Sound) (hs : m.isServer = true) :
    ∀ e ∈ es, e.isAbout id = true := by
  cases h with
  | ended live => exact isAbout_farewell hm hs live _
  | _ => simp [NetEvent.isAbout]

/-- Some connections end, and the application is told of those that had a channel. All others stay as they are. -/
structure Parts (m m' : Manager ι δ) (es : List NetEvent) : Prop extends Advances m m' where
  events : m'.events = m.events ++ es
  each : ∀ id, (m'.connections.get? id = m.connections.get? id ∧ es.filter (·.isAbout id) = []) ∨
    ∃ c reason, m.connections.get? id = some c ∧ m'.connections.get? id = none ∧
      es.filter (·.isAbout id) = (m.farewell c reason).toList

theorem Parts.of_eq (h : Advances m m') (hc : m'.connections = m.connections) (he : m'.events = m.events) :
    Parts m m' [] := ⟨h, by rw [he, List.append_nil], fun _ => Or.inl ⟨by rw [hc], rfl⟩⟩

theorem Parts.trans (h : Parts m m' es) (h' : Parts m' m'' es') : Parts m m'' (es ++ es') where
  toAdvances := h.toAdvances.trans h'.toAdvances
  events := by rw [h'.events, h.events, List.append_assoc]
  each id := by
    rw [List.filter_append]
    rcases h.each id with ⟨hget, hnil⟩ | ⟨c, reason, hget, hgone, htold⟩
    · rw [hnil, List.nil_append]
      rcases h'.each id with ⟨hget', hnil'⟩ | ⟨c, reason, hget', hgone', htold'⟩
      · exact Or.inl ⟨hget'.trans hget, hnil'⟩
      · have hfarewell : m'.farewell c reason = m.farewell c reason := by rw [farewell, isServer, h.side]; rfl
        exact Or.inr ⟨c, reason, hget ▸ hget', hgone', htold'.trans (by rw [hfarewell])⟩
    · rcases h'.each id with ⟨hget', hnil'⟩ | ⟨c', reason', hget', -⟩
      · exact Or.inr ⟨c, reason, hget, hget'.trans hgone, by rw [htold, hnil', List.append_nil]⟩
      · cases hgone.symm.trans hget'

theorem teardown_parts (hm : m.Sound) (hs : m.isServer = true) (id : ConnectionId) (reason : String) :
    ∃ es, Parts m (m.teardown id reason) es := by
  have hadv : Advances m (m.teardown id reason) := .of_settles hm ((hm id).toWired.teardown reason)
  cases live : m.connections.get? id with
  | none =>
    have hnone : (m.clearPending id).connections.remove id = none := ConnectionTable.remove_eq_none.mpr live
    have heq : m.teardown id reason = m.clearPending id := by simp only [teardown, hnone]
    rw [heq] at hadv ⊢
    exact ⟨[], .of_eq hadv rfl rfl⟩
  | some c =>
    refine ⟨(m.farewell c reason).toList, hadv, events_teardown live reason, fun j => ?_⟩
    rw [get?_teardown, filter_isAbout (isAbout_farewell hm hs live reason)]
    split
    · rename_i hj
      subst hj
      exact Or.inr ⟨c, reason, live, rfl, rfl⟩
    · exact Or.inl ⟨rfl, rfl⟩

theorem teardownAll_parts (hm : m.Sound) (hs : m.isServer = true) (ids : List ConnectionId) (reason : String) :
    ∃ es, Parts m (ids.foldl (fun m id => m.teardown id reason) m) es := by
  induction ids generalizing m with
  | nil => exact ⟨[], .of_eq (.refl hm) rfl rfl⟩
  | cons id ids ih =>
    obtain ⟨es, hone⟩ := teardown_parts hm hs id reason
    obtain ⟨es', hrest⟩ := ih hone.sound (by rw [isServer, hone.side]; exact hs)
    exact ⟨es ++ es', hone.trans hrest⟩

theorem shutdown_parts (hm : m.Sound) (hs : m.isServer = true) (w : μ) (reason : String) :
    ∃ es, Parts m (m.shutdown w reason).1 es := by
  have hadv := shutdown_advances hm w reason
  unfold shutdown at hadv ⊢
  split
  · exact ⟨[], .of_eq (.refl hm) rfl rfl⟩
  · rename_i hrun
    rw [if_neg hrun] at hadv
    obtain ⟨es, hall⟩ := teardownAll_parts hm hs (m.connections.live.map (·.id)) reason
    exact ⟨es, hadv, hall.events, hall.each⟩

/-- A call other than to handle events or to take what there is to be told. -/
def Call.IsAside : Call μ ι δ → Prop
  | .next _ => False
  | .process => False
  | .takeEvents => False
  | _ => True

theorem perform_parts (hm : m.Sound) (hs : m.isServer = true) (w : μ) {c : Call μ ι δ} (hc : c.IsAside) :
    ∃ es, Parts m (perform (m, w) c).1 es := by
  cases c with
  | start =>
    have htransports : ∃ hs, (m.start w).2.1 = { m with transports := hs } := by
      unfold start
      repeat' split
      all_goals exact ⟨_, rfl⟩
    obtain ⟨hs, heq⟩ := htransports
    exact ⟨[], .of_eq (start_advances hm w) (by rw [perform, heq]) (by rw [perform, heq])⟩
  | connect h remote username =>
    have heq : (m.connect w h remote username).2.1 = m := by rw [connect, if_pos hs]
    exact ⟨[], .of_eq (connect_advances hm w h remote username) (by rw [perform, heq]) (by rw [perform, heq])⟩
  | next i => cases hc
  | process => cases hc
  | disconnect id reason =>
    rw [perform, disconnect]
    split
    · exact teardown_parts hm hs id reason
    · exact ⟨[], .of_eq (.refl hm) rfl rfl⟩
  | send id t x => exact ⟨[], .of_eq (.refl hm) rfl rfl⟩
  | broadcast t x => exact ⟨[], .of_eq (.refl hm) rfl rfl⟩
  | shutdown reason => exact shutdown_parts hm hs w reason
  | register t receive =>
    cases hr : m.register t receive with
    | error f =>
      simp only [perform, hr]
      exact ⟨[], .of_eq (.refl hm) rfl rfl⟩
    | ok m' =>
      obtain ⟨strings, registry, rfl, -⟩ := register_eq hr
      simp only [perform, hr]
      exact ⟨[], .of_eq (.of_eq hm rfl rfl rfl rfl) rfl rfl⟩
  | setHook hook => exact ⟨[], .of_eq (.of_eq hm rfl rfl rfl rfl) rfl rfl⟩
  | changeSetting key value =>
    obtain ⟨settings, heq⟩ := m.changeSetting_eq w key value
    exact ⟨[], .of_eq (perform_advances hm w (.changeSetting key value)) (by rw [perform, heq]) (by rw [perform, heq])⟩
  | takeEvents => cases hc
  | takeReceived => exact ⟨[], .of_eq (.of_eq hm rfl rfl rfl rfl) rfl rfl⟩
  | outside w' => exact ⟨[], .of_eq (.refl hm) rfl rfl⟩

end Manager
end StateSync
