import StateSync.Proofs.Manager.Chronicle
import StateSync.Proofs.Manager.Client

/-! The connections that a client opens one after another, each with what the application is told from then on until
    the next one is opened (`Logbook`). Of each it is told a failure or a beginning and an end, as far as it has come,
    and until then it can open no other (`run_reports`). -/

namespace StateSync
variable {μ ι δ : Type}

/-- A connection that a client has opened, and what its application was told from then on, until it opened another. -/
structure Attempt where
  id : ConnectionId
  remote : Address
  told : List NetEvent

/-- A chronicle of a client, with the connections that it has opened. -/
structure Logbook (μ ι δ : Type) where
  chronicle : Chronicle μ ι δ
  past : List Attempt
  /-- The one that was opened last. -/
  current : Option Attempt

namespace Logbook

def create (settings : Settings) (w : μ) : Logbook μ ι δ := ⟨Chronicle.create .client settings w, [], none⟩

def attempts (b : Logbook μ ι δ) : List Attempt := b.past ++ b.current.toList

variable {b : Logbook μ ι δ} {es : List NetEvent}

/-! ### What is kept -/

/-- Only the connection that was opened last can live, each one has been told of as becomes it, and nothing else has
    been told. -/
structure Sound (b : Logbook μ ι δ) : Prop where
  manager : b.chronicle.manager.Sound
  client : b.chronicle.manager.isServer = false
  alone : ∀ id c, b.chronicle.manager.connections.get? id = some c →
    ∃ a, b.current = some a ∧ id = a.id ∧ c.remote = a.remote
  current : ∀ a, b.current = some a → a.id.val < b.chronicle.manager.connections.slots.length ∧
    Report a.id a.remote (b.chronicle.manager.standing? a.id) a.told
  past : ∀ a ∈ b.past, b.chronicle.manager.connections.IsDead a.id ∧ Report a.id a.remote none a.told
  told : b.chronicle.told = (b.attempts.map (·.told)).flatten

theorem sound_create (settings : Settings) (w : μ) : (create settings w : Logbook μ ι δ).Sound where
  manager := Manager.sound_create .client settings
  client := rfl
  alone _ _ live := by cases live
  current _ h := by cases h
  past _ h := by cases h
  told := rfl

/-- What is told while no connection is opened is told of the current one. -/
theorem Sound.reports (hb : b.Sound) {k : Chronicle μ ι δ} (hr : Manager.Reports b.chronicle.manager k.manager es)
    (htold : k.told = b.chronicle.told ++ es) :
    Sound ⟨k, b.past, b.current.map fun a => { a with told := a.told ++ es }⟩ := by
  refine ⟨hr.advances.sound, hr.advances.isServer.trans hb.client, fun id c' live => ?_,
    fun a ha => ?_, fun a ha => ?_, ?_⟩
  · obtain ⟨c, live₀, hremote⟩ := hr.descends id c' live
    obtain ⟨a, ha, hid, hc⟩ := hb.alone id c live₀
    exact ⟨_, congrArg (Option.map _) ha, hid, hremote.trans hc⟩
  · obtain ⟨a₀, ha₀, rfl⟩ := Option.map_eq_some_iff.mp ha
    obtain ⟨hlt, hreport⟩ := hb.current a₀ ha₀
    refine ⟨Nat.lt_of_lt_of_le hlt hr.advances.ages.grown, hr.report (fun j c live => ?_) hreport⟩
    obtain ⟨a, ha, hid, hc⟩ := hb.alone j c live
    obtain rfl := Option.some.inj (ha₀.symm.trans ha)
    exact ⟨hid, hc⟩
  · obtain ⟨hdead, hreport⟩ := hb.past a ha
    exact ⟨⟨Nat.lt_of_lt_of_le hdead.1 hr.advances.ages.grown, hr.advances.ages.dead hdead⟩, hreport⟩
  · cases hcurrent : b.current with
    | none =>
      have hnone : ∀ id, b.chronicle.manager.connections.get? id = none := fun id =>
        Option.eq_none_iff_forall_ne_some.mpr fun c live => by
          obtain ⟨a, ha, -⟩ := hb.alone id c live
          cases hcurrent.symm.trans ha
      rw [htold, hr.silent hnone, List.append_nil, hb.told, attempts, hcurrent]
      rfl
    | some a =>
      rw [htold, hb.told, attempts, hcurrent]
      simp [attempts]

theorem Sound.dead (hb : b.Sound) (hnone : ∀ id, b.chronicle.manager.connections.get? id = none) :
    ∀ a ∈ b.attempts, b.chronicle.manager.connections.IsDead a.id ∧ Report a.id a.remote none a.told := by
  intro a ha
  rcases List.mem_append.mp ha with ha | ha
  · exact hb.past a ha
  · obtain ⟨hlt, hreport⟩ := hb.current a (Option.mem_toList.mp ha)
    rw [Manager.standing?_eq_none.mpr (hnone a.id)] at hreport
    exact ⟨⟨hlt, hnone a.id⟩, hreport⟩

/-- The report of each connection, also of those that are long gone. -/
theorem Sound.report (hb : b.Sound) {a : Attempt} (ha : a ∈ b.attempts) :
    Report a.id a.remote (b.chronicle.manager.standing? a.id) a.told := by
  rcases List.mem_append.mp ha with ha | ha
  · obtain ⟨hdead, hreport⟩ := hb.past a ha
    rwa [Manager.standing?_eq_none.mpr hdead.2]
  · exact (hb.current a (Option.mem_toList.mp ha)).2

/-! ### Calls -/

variable [Medium μ ι]

/-- The connection that a call opens, and where it leads to. -/
def opened? (b : Logbook μ ι δ) : Manager.Call μ ι δ → Option (ConnectionId × Address)
  | .connect h remote username =>
    match (b.chronicle.manager.connect b.chronicle.medium h remote username).1 with
    | .ok id => some (id, remote)
    | .error _ => none
  | _ => none

def perform (b : Logbook μ ι δ) (x : Manager.Call μ ι δ) : Logbook μ ι δ :=
  let k := b.chronicle.perform x
  let es := k.told.drop b.chronicle.told.length
  match b.opened? x with
  | some (id, remote) => ⟨k, b.attempts, some ⟨id, remote, es⟩⟩
  | none => ⟨k, b.past, b.current.map fun a => { a with told := a.told ++ es }⟩

def run (b : Logbook μ ι δ) (calls : List (Manager.Call μ ι δ)) : Logbook μ ι δ := calls.foldl perform b

theorem chronicle_perform (b : Logbook μ ι δ) (x : Manager.Call μ ι δ) :
    (b.perform x).chronicle = b.chronicle.perform x := by
  unfold perform
  dsimp only
  split <;> rfl

theorem chronicle_run (b : Logbook μ ι δ) (calls : List (Manager.Call μ ι δ)) :
    (b.run calls).chronicle = b.chronicle.run calls := by
  induction calls generalizing b with
  | nil => rfl
  | cons x calls ih =>
    rw [run, List.foldl_cons, Chronicle.run, List.foldl_cons, ← chronicle_perform]
    exact ih (b.perform x)

variable {x : Manager.Call μ ι δ}

theorem perform_unopened (hopened : b.opened? x = none) (htold : (b.chronicle.perform x).told = b.chronicle.told ++ es) :
    b.perform x = ⟨b.chronicle.perform x, b.past, b.current.map fun a => { a with told := a.told ++ es }⟩ := by
  rw [perform, hopened]
  dsimp only
  rw [htold, List.drop_left]

theorem perform_opened {id : ConnectionId} {remote : Address} (hopened : b.opened? x = some (id, remote))
    (htold : (b.chronicle.perform x).told = b.chronicle.told ++ es) :
    b.perform x = ⟨b.chronicle.perform x, b.attempts, some ⟨id, remote, es⟩⟩ := by
  rw [perform, hopened]
  dsimp only
  rw [htold, List.drop_left]

theorem Sound.takeEvents (hb : b.Sound) : (b.perform .takeEvents).Sound := by
  have htold : (b.chronicle.perform .takeEvents).told = b.chronicle.told ++ [] := by
    rw [List.append_nil]
    exact Chronicle.told_takeEvents b.chronicle
  rw [perform_unopened rfl htold]
  simp only [List.append_nil, Option.map_id']
  have hadv : Manager.Advances b.chronicle.manager b.chronicle.manager.takeEvents.2 :=
    .of_eq hb.manager rfl rfl rfl rfl
  exact ⟨hadv.sound, hb.client, hb.alone, hb.current, hb.past, (Chronicle.told_takeEvents b.chronicle).trans hb.told⟩

/-- A connection is opened when none lives. Nothing has been told of it. -/
theorem Sound.connect (hb : b.Sound) (h : ι) (remote : Address) (username : String) :
    (b.perform (.connect h remote username)).Sound := by
  have hadv := Manager.connect_advances hb.manager b.chronicle.medium h remote username
  have hunchanged : ∀ (f : NetError) (w' : μ), b.chronicle.manager.connect b.chronicle.medium h remote username =
      (.error f, b.chronicle.manager, w') → (b.perform (.connect h remote username)).Sound := by
    intro f w' heq
    have hmanager : (b.chronicle.perform (.connect h remote username)).manager = b.chronicle.manager := by
      simp only [Chronicle.perform, Chronicle.withState, Manager.perform, heq]
    have htold : (b.chronicle.perform (.connect h remote username)).told = b.chronicle.told ++ [] := by
      refine Chronicle.told_perform (fun h => by cases h) ?_
      simp only [Manager.perform, heq, List.append_nil]
    have hopened : b.opened? (.connect h remote username) = none := by simp only [opened?, heq]
    rw [perform_unopened hopened htold]
    refine hb.reports ?_ htold
    rw [hmanager]
    exact .of_eq (.refl hb.manager) rfl rfl
  rcases Manager.connect_of_client hb.manager hb.client b.chronicle.medium h remote username with
    ⟨-, heq⟩ | ⟨hnone, ⟨f, w', -, heq⟩ | ⟨peer, w', w'', -, heq⟩⟩
  · exact hunchanged _ _ heq
  · exact hunchanged _ _ heq
  · have hmanager : (b.chronicle.perform (.connect h remote username)).manager =
        b.chronicle.manager.dialing h username peer remote := by
      simp only [Chronicle.perform, Chronicle.withState, Manager.perform, heq]
    have htold : (b.chronicle.perform (.connect h remote username)).told = b.chronicle.told ++ [] := by
      refine Chronicle.told_perform (fun h => by cases h) ?_
      simp only [Manager.perform, heq, List.append_nil]
      rfl
    have hopened : b.opened? (.connect h remote username) = some (b.chronicle.manager.connections.nextId, remote) := by
      simp only [opened?, heq]
    rw [heq, ← hmanager] at hadv
    rw [perform_opened hopened htold]
    refine ⟨hadv.sound, hadv.isServer.trans hb.client, fun id c live => ?_, fun a ha => ?_,
      fun a ha => ?_, ?_⟩
    · rw [hmanager, Manager.get?_dialing hnone] at live
      obtain ⟨rfl, rfl⟩ := live
      exact ⟨_, rfl, rfl, rfl⟩
    · obtain rfl := Option.some.inj ha
      have live : (b.chronicle.perform (.connect h remote username)).manager.connections.get?
          b.chronicle.manager.connections.nextId =
            some ⟨b.chronicle.manager.connections.nextId, 0, peer, remote, .connecting, none, none⟩ := by
        rw [hmanager, Manager.get?_dialing hnone]
        exact ⟨rfl, rfl⟩
      refine ⟨ConnectionTable.lt_of_get? live, ?_⟩
      rw [Manager.standing?_of_get? live]
      exact .handshaking
    · obtain ⟨hdead, hreport⟩ := hb.dead hnone a ha
      exact ⟨⟨Nat.lt_of_lt_of_le hdead.1 hadv.ages.grown, hadv.ages.dead hdead⟩, hreport⟩
    · rw [htold, hb.told]
      simp [attempts]

theorem Sound.perform (hb : b.Sound) (x : Manager.Call μ ι δ) : (b.perform x).Sound := by
  have hother : x.IsReported → b.opened? x = none → x ≠ .takeEvents → (b.perform x).Sound := by
    intro hx hopened hne
    obtain ⟨es, hr⟩ := Manager.perform_reports hb.manager hb.client b.chronicle.medium hx
    have htold := Chronicle.told_perform hne hr.events
    rw [perform_unopened hopened htold]
    have hmanager : (b.chronicle.perform x).manager = _ := congrArg Prod.fst (Chronicle.state_perform b.chronicle x)
    exact hb.reports (hmanager ▸ hr) htold
  cases x with
  | connect h remote username => exact hb.connect h remote username
  | takeEvents => exact hb.takeEvents
  | _ => exact hother trivial rfl nofun

theorem Sound.run (hb : b.Sound) (calls : List (Manager.Call μ ι δ)) : (b.run calls).Sound := by
  induction calls generalizing b with
  | nil => exact hb
  | cons x calls ih => exact ih (hb.perform x)

/-- Whatever is called on a client, and whatever its transports do: all that its application is told is told of a
    connection that it has opened, before it opens the next. Of each it is told nothing yet, while the handshake lasts;
    a failure, if it ended before it had a channel; its beginning, while it has its channel; or its beginning and its
    end. A connection lives as long as no end of it has been told; only the one that was opened last can live, and
    exactly while it does is the client refused another, unless its transport refuses it one. -/
theorem run_reports (settings : Settings) (w : μ) (calls : List (Manager.Call μ ι δ)) :
    let b : Logbook μ ι δ := (create settings w).run calls
    let m := b.chronicle.manager
    (m, b.chronicle.medium) = Manager.run (Manager.create .client settings, w) calls ∧
    b.chronicle.told = (b.attempts.map (·.told)).flatten ∧
    (∀ a ∈ b.attempts,
      (a.told = [] ∧ ∃ c, m.connections.get? a.id = some c ∧ c.channel = none) ∨
      (∃ reason, a.told = [.connectFailed a.remote reason] ∧ m.connections.get? a.id = none) ∨
      (∃ name, a.told = [.connected a.id name a.remote] ∧ m.channel? a.id = some ⟨a.id, name, a.remote⟩) ∨
      ∃ name reason, a.told = [.connected a.id name a.remote, .disconnected a.id name reason] ∧
        m.connections.get? a.id = none) ∧
    (∀ a ∈ b.attempts, m.connections.isLive a.id = true ↔ ∀ e ∈ a.told, e.isEnd = false) ∧
    (∀ id, m.connections.isLive id = true → ∃ a, b.current = some a ∧ a.id = id) ∧
    ∀ h remote username,
      ((∃ id, m.connections.isLive id = true) →
        m.connect b.chronicle.medium h remote username =
          (.error .alreadyRunning, m, Medium.close b.chronicle.medium h)) ∧
      ((∀ id, m.connections.isLive id = false) →
        (m.connect b.chronicle.medium h remote username).1 =
          (Medium.connect (Manager.tune b.chronicle.medium m.settings h) h remote).1.map
            fun _ => m.connections.nextId) := by
  intro b m
  have hb : b.Sound := (sound_create settings w).run calls
  have hstate : (m, b.chronicle.medium) = Manager.run (Manager.create .client settings, w) calls := by
    rw [show m = (b.chronicle).manager from rfl, chronicle_run]
    exact Chronicle.state_run _ calls
  refine ⟨hstate, hb.told, fun a ha => (hb.report ha).told_cases, fun a ha => (hb.report ha).isLive_iff,
    fun id hlive => ?_, fun h remote username => ?_⟩
  · obtain ⟨c, live⟩ := Option.isSome_iff_exists.mp hlive
    obtain ⟨a, ha, hid, -⟩ := hb.alone id c live
    exact ⟨a, ha, hid.symm⟩
  · rcases Manager.connect_of_client hb.manager hb.client b.chronicle.medium h remote username with
      ⟨⟨id, hlive⟩, heq⟩ | ⟨hnone, hconnect⟩
    · exact ⟨fun _ => heq, fun hdead => (nomatch (hdead id).symm.trans hlive)⟩
    · refine ⟨fun ⟨id, hlive⟩ => ?_, fun _ => ?_⟩
      · rw [ConnectionTable.isLive, hnone id] at hlive
        cases hlive
      · rcases hconnect with ⟨f, w', hmedium, heq⟩ | ⟨peer, w', w'', hmedium, heq⟩
        · rw [heq, hmedium]
          rfl
        · rw [heq, hmedium]
          rfl

end Logbook
end StateSync
