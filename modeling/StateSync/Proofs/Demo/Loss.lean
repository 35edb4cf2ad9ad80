import StateSync.Proofs.Demo.Circuit
import StateSync.Proofs.Manager.Client

/-! What a player makes of the loss of its connection. When it takes the news it gives up its buffer and its view, and
    from then on nothing more comes in; but the states that had come in before, and that no tick has looked at yet, are
    left. The view stays empty unless a new buffer can begin with these (`turns_lost`). -/

namespace StateSync

/-! ### One connection -/

/-- The connection `id` to `remote` is the only one that there can be, and the application, once it has taken the
    events, has been told of it what becomes it. -/
structure Manager.Sole {ι δ : Type} (m : Manager ι δ) (id : ConnectionId) (remote : Address) (told : List NetEvent) :
    Prop where
  sound : m.Sound
  client : m.isServer = false
  alone : m.Alone id remote
  report : Report id remote (m.standing? id) (told ++ m.events)

namespace Manager.Sole
variable {ι δ : Type} {m m' : Manager ι δ} {id : ConnectionId} {remote : Address} {told es : List NetEvent}

theorem reports (h : m.Sole id remote told) (hr : Reports m m' es) : m'.Sole id remote told where
  sound := hr.advances.sound
  client := hr.advances.isServer.trans h.client
  alone := h.alone.descends hr.descends
  report := by
    rw [hr.events, ← List.append_assoc]
    exact hr.report h.alone h.report

theorem takeEvents (h : m.Sole id remote told) : m.takeEvents.2.Sole id remote (told ++ m.events) where
  sound := fun j => (h.sound j).of_eq rfl rfl rfl rfl
  client := h.client
  alone := h.alone
  report := by
    have hreport := h.report
    rw [← List.append_nil (told ++ m.events)] at hreport
    exact hreport

/-- Once an end has been told there is no connection. -/
theorem idle (h : m.Sole id remote told) {e : NetEvent} (he : e ∈ m.events) (hend : e.isEnd = true) :
    m.takeEvents.2.Idle := by
  -- The report of a connection that lives tells of no end.
  have hdead : ¬ m.connections.isLive id = true := fun hlive => by
    have hopen := h.report.isLive_iff.mp hlive e (List.mem_append_right told he)
    cases hend.symm.trans hopen
  refine ⟨h.takeEvents.sound, h.client, fun j => ?_, rfl⟩
  refine Option.eq_none_iff_forall_ne_some.mpr fun c live => hdead ?_
  obtain ⟨rfl, -⟩ := h.alone j c live
  rw [ConnectionTable.isLive, show m.connections.get? j = some c from live]
  rfl

end Manager.Sole

namespace Player
variable {p q : Player} {n : Network}

/-! ### Runs -/

/-- What happens while there is a player. -/
inductive Turn where
  | update (frame : Nat)
  | shutdown
  /-- Others do something to the network. -/
  | others (f : Network → Network)

def turn (s : Player × Network) : Turn → Player × Network
  | .update frame => s.1.update s.2 frame
  | .shutdown => s.1.shutdown s.2
  | .others f => (s.1, f s.2)

def turns (s : Player × Network) (ts : List Turn) : Player × Network := ts.foldl turn s

/-- The events that an update takes. -/
def news (p : Player) (n : Network) : List NetEvent := (p.manager.process n).1.events

/-- The states that have come in when an update takes the events, and that no tick has looked at. -/
def waiting (p : Player) (n : Network) : List GameState := (p.manager.process n).1.received.map (·.2)

theorem turn_update (s : Player × Network) (frame : Nat) : turn s (.update frame) = s.1.update s.2 frame := rfl

theorem turns_append (s : Player × Network) (ts ts' : List Turn) : turns s (ts ++ ts') = turns (turns s ts) ts' :=
  List.foldl_append

theorem turns_cons (s : Player × Network) (t : Turn) (ts : List Turn) : turns s (t :: ts) = turns (turn s t) ts := rfl

theorem manager_handleEvents (p : Player) : p.handleEvents.manager = p.manager.takeEvents.2 :=
  (foldl_handleEvent p.manager.events { p with manager := p.manager.takeEvents.2 }).1

theorem manager_runTick (p : Player) (n : Network) : (p.runTick n).1.manager = p.manager.takeReceived.2 := by
  unfold runTick carryOut
  dsimp only
  split
  · rfl
  · split <;> rfl

theorem manager_runTicks (p : Player) (n : Network) (count : Nat) :
    ∃ received, (p.runTicks n count).1.manager = { p.manager with received := received } := by
  induction count generalizing p n with
  | zero => exact ⟨p.manager.received, rfl⟩
  | succ count ih =>
    obtain ⟨received, heq⟩ := ih (p.runTick n).1 (p.runTick n).2
    refine ⟨received, heq.trans ?_⟩
    rw [manager_runTick]
    rfl

theorem manager_update (p : Player) (n : Network) (frame : Nat) :
    ∃ received, (p.update n frame).1.manager = { (p.informed n).manager with received := received } := by
  rw [update_eq]
  exact manager_runTicks _ _ _

theorem applied_runTick (p : Player) (n : Network) : p.stats.applied ≤ (p.runTick n).1.stats.applied := by
  unfold runTick carryOut
  dsimp only
  split
  · exact Nat.le_refl _
  · split
    · exact Nat.le_refl _
    · exact Nat.le_succ _

/-! ### Until the loss -/

section
variable {id : ConnectionId} {remote : Address} {told : List NetEvent}

theorem sole_informed (h : p.manager.Sole id remote told) (n : Network) :
    (p.manager.process n).1.Sole id remote told ∧ (p.informed n).manager.Sole id remote (told ++ p.news n) := by
  obtain ⟨es, hr⟩ := Manager.process_reports h.sound h.client n
  have hprocessed := h.reports hr
  refine ⟨hprocessed, ?_⟩
  rw [informed, manager_handleEvents]
  exact hprocessed.takeEvents

theorem sole_turn {s : Player × Network} (h : s.1.manager.Sole id remote told) (t : Turn) :
    ∃ told', (turn s t).1.manager.Sole id remote told' := by
  cases t with
  | update frame =>
    obtain ⟨received, heq⟩ := manager_update s.1 s.2 frame
    obtain ⟨-, hinformed⟩ := sole_informed h s.2
    refine ⟨told ++ s.1.news s.2, ?_⟩
    show (s.1.update s.2 frame).1.manager.Sole id remote _
    rw [heq]
    exact ⟨fun j => (hinformed.sound j).of_eq rfl rfl rfl rfl, hinformed.client, hinformed.alone, hinformed.report⟩
  | shutdown =>
    obtain ⟨es, hr⟩ := Manager.shutdown_reports h.sound h.client s.2 "Client quit"
    exact ⟨told, h.reports hr⟩
  | others f => exact ⟨told, h⟩

theorem sole_turns {s : Player × Network} (h : s.1.manager.Sole id remote told) (ts : List Turn) :
    ∃ told', (turns s ts).1.manager.Sole id remote told' := by
  induction ts generalizing s told with
  | nil => exact ⟨told, h⟩
  | cons t ts ih =>
    obtain ⟨told', ht⟩ := sole_turn h t
    exact ih ht

/-- A player begins with the connection that it dials, and with nothing else. -/
theorem connect_eq_ok {n' : Network} {username : String} {settings : Settings}
    (h : connect n remote username settings = (.ok p, n')) :
    ∃ addr peer, ((enrolled settings).dialing addr username peer remote).Sound ∧
      p = ⟨(enrolled settings).dialing addr username peer remote, (enrolled settings).connections.nextId,
        .create settings.buffer, .create settings.tickRate, 0, .empty, ⟨0, 0, 0⟩, n'.clock⟩ := by
  have hm : (enrolled settings).Sound := fun id => (Manager.sound_create .client settings id).of_eq rfl rfl rfl rfl
  rw [connect, register_eq] at h
  dsimp only at h
  split at h
  · cases h
  · rename_i addr n₁ _
    have hadv := Manager.connect_advances hm n₁ addr remote username
    rcases Manager.connect_of_client hm rfl n₁ addr remote username with
      ⟨-, heq⟩ | ⟨-, ⟨f, w, -, heq⟩ | ⟨peer, w, w', -, heq⟩⟩
    · rw [heq] at h
      cases h
    · rw [heq] at h
      cases h
    · rw [heq] at h hadv
      cases h
      exact ⟨addr, peer, hadv.sound, rfl⟩

/-- It has been told nothing of its connection. -/
theorem sole_connect {n' : Network} {username : String} {settings : Settings}
    (h : connect n remote username settings = (.ok p, n')) : ∃ id, p.manager.Sole id remote [] := by
  obtain ⟨addr, peer, hsound, rfl⟩ := connect_eq_ok h
  have hnone : ∀ id, (enrolled settings).connections.get? id = none := fun _ => rfl
  have live : ((enrolled settings).dialing addr username peer remote).connections.get?
      (enrolled settings).connections.nextId =
        some ⟨(enrolled settings).connections.nextId, 0, peer, remote, .connecting, none, none⟩ :=
    (Manager.get?_dialing hnone).mpr ⟨rfl, rfl⟩
  refine ⟨(enrolled settings).connections.nextId, hsound, rfl, fun j c hc => ?_, ?_⟩
  · obtain ⟨rfl, rfl⟩ := (Manager.get?_dialing hnone).mp hc
    exact ⟨rfl, rfl⟩
  · rw [Manager.standing?_of_get? live]
    exact .handshaking

end

/-! ### The loss -/

/-- Without its buffer and its view. -/
def bereave (p : Player) : Player := { p with buffer := p.buffer.reset, view := SortedMap.empty }

theorem foldl_handleEvent_bereave (events : List NetEvent) (p : Player) :
    events.foldl handleEvent p.bereave = p.bereave := by
  induction events with
  | nil => rfl
  | cons e events ih =>
    have hstep : handleEvent p.bereave e = p.bereave := by cases e <;> rfl
    rw [List.foldl_cons, hstep]
    exact ih

theorem foldl_handleEvent_of_end {events : List NetEvent} {e : NetEvent} (he : e ∈ events) (hend : e.isEnd = true)
    (p : Player) : events.foldl handleEvent p = p.bereave := by
  induction events with
  | nil => cases he
  | cons e' events ih =>
    rw [List.foldl_cons]
    cases e' with
    | connected j name remote =>
      rcases List.mem_cons.mp he with rfl | he
      · cases hend
      · exact ih he
    | disconnected j name reason => exact foldl_handleEvent_bereave events p
    | connectFailed remote reason => exact foldl_handleEvent_bereave events p

/-! ### After the loss -/

/-- The player of a tick once it has taken in what has come. -/
def fed (p : Player) (n : Network) : Player := p.collect ((n.clock - p.started) / Network.millisecond)

theorem buffer_fed (p : Player) (n : Network) : (p.fed n).buffer =
    p.buffer.takeIn (p.manager.received.map (·.2)) ((n.clock - p.started) / Network.millisecond) :=
  StateBuffer.foldl_add _ _ _

theorem buffer_runTick (p : Player) (n : Network) :
    (p.runTick n).1.buffer = ((p.fed n).buffer.select (p.fed n).tick).2.2 := by
  unfold runTick carryOut
  dsimp only
  split
  · rfl
  · split <;> rfl

/-- A buffer that cannot begin stays as it is. -/
theorem runTick_of_not_begins (hnew : (p.fed n).buffer.lastApplied = none) (h : ¬ (p.fed n).buffer.Begins) :
    (p.runTick n).1.buffer = (p.fed n).buffer ∧ (p.runTick n).1.view = p.view ∧
      (p.runTick n).1.stats.applied = p.stats.applied := by
  have hselect := StateBuffer.select_of_not_begins hnew h (p.fed n).tick
  have hbuffer := p.buffer_runTick n
  rw [hselect] at hbuffer
  refine ⟨hbuffer, ?_⟩
  unfold fed at hselect
  unfold runTick carryOut
  dsimp only
  rw [hselect]
  exact ⟨rfl, rfl⟩

/-- One that can begin has a state applied. -/
theorem runTick_of_begins {xs : List GameState} (hw : (p.fed n).buffer.Within xs)
    (hnew : (p.fed n).buffer.lastApplied = none) (h : (p.fed n).buffer.Begins) :
    (p.runTick n).1.stats.applied = p.stats.applied + 1 := by
  obtain ⟨s, hs, hselect⟩ := StateBuffer.select_of_begins hnew h (p.fed n).tick
  obtain ⟨⟨k, hk⟩, -⟩ := StateBuffer.held_of_primer hs
  have hreal := (StateBuffer.isWellFormed_iff.mp (hw.sound.wellFormed hk)).1
  unfold fed at hselect
  unfold runTick carryOut
  dsimp only
  rw [hselect]
  dsimp only [StateBuffer.applyFull, Selection.chosen]
  rw [if_neg (by rw [hreal]; exact Bool.false_ne_true)]
  rfl

theorem within_runTick {xs : List GameState} (hw : (p.fed n).buffer.Within xs) : (p.runTick n).1.buffer.Within xs := by
  rw [buffer_runTick]
  exact hw.selects (StateBuffer.select_selects _ _)

/-- A player that has lost its connection, when its stats were `stats` and the states `xs` had come in that no tick had
    looked at. -/
inductive Aftermath (settings : BufferSettings) (xs : List GameState) (stats : PlayerStats) (p : Player) : Prop
  /-- No tick has come since. -/
  | fresh (received : p.manager.received.map (·.2) = xs) (buffer : p.buffer = .create settings)
      (view : p.view = SortedMap.empty) (same : p.stats = stats)
  /-- The states that were left are of no use. -/
  | bereft (received : p.manager.received = []) (origin : Nat)
      (buffer : p.buffer = (StateBuffer.create settings).takeIn xs origin)
      (stuck : ¬ ((StateBuffer.create settings).takeIn xs 0).Begins) (view : p.view = SortedMap.empty)
      (same : p.stats.applied = stats.applied)
  /-- One of them was applied. -/
  | resumed (received : p.manager.received = []) (begun : ((StateBuffer.create settings).takeIn xs 0).Begins)
      (within : p.buffer.Within xs) (more : stats.applied < p.stats.applied)

section
variable {settings : BufferSettings} {xs : List GameState} {stats : PlayerStats}

theorem Aftermath.runTick (h : Aftermath settings xs stats p) (n : Network) :
    Aftermath settings xs stats (p.runTick n).1 := by
  have hreceived : (p.runTick n).1.manager.received = [] := by
    rw [manager_runTick]
    rfl
  have hfed := p.buffer_fed n
  cases h with
  | fresh received buffer view same =>
    -- This tick looks at the states that were left, and none after it does.
    rw [received, buffer] at hfed
    generalize (n.clock - p.started) / Network.millisecond = origin at hfed
    have hwithin := StateBuffer.within_takeIn settings xs origin
    have hnew := StateBuffer.lastApplied_takeIn (.create settings) xs origin
    have hbegins := StateBuffer.begins_takeIn settings xs origin 0
    rw [← hfed] at hwithin hnew hbegins
    by_cases h : (p.fed n).buffer.Begins
    · refine .resumed hreceived (hbegins.mp h) (within_runTick hwithin) ?_
      rw [runTick_of_begins hwithin hnew h, same]
      exact Nat.lt_succ_self _
    · obtain ⟨hbuffer, hview, happlied⟩ := runTick_of_not_begins hnew h
      exact .bereft hreceived origin (hbuffer.trans hfed) (fun h' => h (hbegins.mpr h')) (hview.trans view)
        (happlied.trans (congrArg _ same))
  | bereft received origin buffer stuck view same =>
    rw [received] at hfed
    have hsame : (p.fed n).buffer = (StateBuffer.create settings).takeIn xs origin := hfed.trans buffer
    have hnew := StateBuffer.lastApplied_takeIn (.create settings) xs origin
    have hstuck : ¬ (p.fed n).buffer.Begins := by
      rw [hsame, StateBuffer.begins_takeIn settings xs origin 0]
      exact stuck
    rw [← hsame] at hnew
    obtain ⟨hbuffer, hview, happlied⟩ := runTick_of_not_begins hnew hstuck
    exact .bereft hreceived origin (hbuffer.trans hsame) stuck (hview.trans view) (happlied.trans same)
  | resumed received begun within more =>
    rw [received] at hfed
    have hwithin : (p.fed n).buffer.Within xs := by
      rw [show (p.fed n).buffer = p.buffer from hfed]
      exact within
    exact .resumed hreceived begun (within_runTick hwithin) (Nat.lt_of_lt_of_le more (applied_runTick p n))

theorem Aftermath.runTicks (h : Aftermath settings xs stats p) (n : Network) (count : Nat) :
    Aftermath settings xs stats (p.runTicks n count).1 := by
  induction count generalizing p n with
  | zero => exact h
  | succ count ih => exact ih (h.runTick n) (p.runTick n).2

theorem Aftermath.congr (h : Aftermath settings xs stats p) (hreceived : q.manager.received = p.manager.received)
    (hbuffer : q.buffer = p.buffer) (hview : q.view = p.view) (hstats : q.stats = p.stats) :
    Aftermath settings xs stats q := by
  cases h with
  | fresh received buffer view same =>
    exact .fresh (hreceived ▸ received) (hbuffer.trans buffer) (hview.trans view) (hstats.trans same)
  | bereft received origin buffer stuck view same =>
    exact .bereft (hreceived.trans received) origin (hbuffer.trans buffer) stuck (hview.trans view) (hstats ▸ same)
  | resumed received begun within more =>
    exact .resumed (hreceived.trans received) begun (hbuffer ▸ within) (hstats ▸ more)

namespace Aftermath

/-- What has not been looked at now had not been looked at then. -/
theorem left (h : Aftermath settings xs stats p) : ∀ x ∈ p.manager.received.map (·.2), x ∈ xs := by
  intro x hx
  cases h with
  | fresh received => exact received ▸ hx
  | bereft received =>
    rw [received] at hx
    cases hx
  | resumed received =>
    rw [received] at hx
    cases hx

theorem applied (h : Aftermath settings xs stats p) : ∀ x, p.buffer.lastApplied = some x → x ∈ xs := by
  intro x hx
  cases h with
  | fresh received buffer =>
    rw [buffer] at hx
    cases hx
  | bereft received origin buffer =>
    rw [buffer] at hx
    exact (StateBuffer.within_takeIn settings xs origin).last x hx
  | resumed received begun within => exact within.last x hx

theorem stuck (h : Aftermath settings xs stats p) (hstuck : ¬ ((StateBuffer.create settings).takeIn xs 0).Begins) :
    p.view = SortedMap.empty ∧ p.buffer.isWaiting = true ∧ p.stats.applied = stats.applied := by
  cases h with
  | fresh received buffer view same =>
    rw [buffer, same]
    exact ⟨view, rfl, rfl⟩
  | bereft received origin buffer stuck view same =>
    refine ⟨view, ?_, same⟩
    rw [buffer, StateBuffer.isWaiting, StateBuffer.lastApplied_takeIn]
    rfl
  | resumed received begun => exact absurd begun hstuck

theorem begun (h : Aftermath settings xs stats p) (hbegins : ((StateBuffer.create settings).takeIn xs 0).Begins) :
    p.stats = stats ∨ stats.applied < p.stats.applied := by
  cases h with
  | fresh received buffer view same => exact Or.inl same
  | bereft received origin buffer stuck => exact absurd hbegins stuck
  | resumed received begun within more => exact Or.inr more

end Aftermath

/-- The loss is taken note of, and nothing more comes in. -/
structure Lost (settings : BufferSettings) (xs : List GameState) (stats : PlayerStats) (p : Player) : Prop where
  idle : p.manager.Idle
  aftermath : Aftermath settings xs stats p

namespace Lost

theorem runTicks (h : Lost settings xs stats p) (n : Network) (count : Nat) :
    Lost settings xs stats (p.runTicks n count).1 := by
  refine ⟨?_, h.aftermath.runTicks n count⟩
  obtain ⟨received, heq⟩ := manager_runTicks p n count
  rw [heq]
  exact h.idle.of_eq (.of_eq h.idle.sound rfl rfl rfl rfl) rfl rfl

theorem informed (h : Lost settings xs stats p) (n : Network) : Lost settings xs stats (p.informed n) := by
  have heq : p.informed n = { p with manager := p.manager.takeEvents.2 } := by
    have hprocess := h.idle.process n
    simp only [Player.informed, hprocess, handleEvents, Manager.takeEvents, h.idle.silent, List.foldl_nil]
  rw [heq]
  exact ⟨h.idle.of_eq (.of_eq h.idle.sound rfl rfl rfl rfl) rfl h.idle.silent.symm, h.aftermath.congr rfl rfl rfl rfl⟩

theorem update (h : Lost settings xs stats (p.informed n)) (frame : Nat) :
    Lost settings xs stats (p.update n frame).1 := by
  have htimed : Lost settings xs stats
      { p.informed n with timestep := ((p.informed n).timestep.advance frame).2 } :=
    ⟨h.idle, h.aftermath.congr rfl rfl rfl rfl⟩
  exact htimed.runTicks _ _

theorem turn {s : Player × Network} (h : Lost settings xs stats s.1) (t : Turn) :
    Lost settings xs stats (turn s t).1 := by
  cases t with
  | update frame => exact (h.informed s.2).update frame
  | shutdown =>
    obtain ⟨hidle, hreceived⟩ := h.idle.shutdown s.2 "Client quit"
    exact ⟨hidle, h.aftermath.congr hreceived rfl rfl rfl⟩
  | others f => exact h

theorem turns {s : Player × Network} (h : Lost settings xs stats s.1) (ts : List Turn) :
    Lost settings xs stats (turns s ts).1 := by
  induction ts generalizing s with
  | nil => exact h
  | cons t ts ih => exact ih (h.turn t)

end Lost

/-- The loss begins with the update that takes the news of it. -/
theorem lost_informed {id : ConnectionId} {remote : Address} {told : List NetEvent}
    (h : p.manager.Sole id remote told) {e : NetEvent} (he : e ∈ p.news n) (hend : e.isEnd = true) :
    Lost p.buffer.settings (p.waiting n) p.stats (p.informed n) := by
  have heq : p.informed n = bereave { p with manager := (p.manager.process n).1.takeEvents.2 } :=
    foldl_handleEvent_of_end he hend _
  rw [heq]
  exact ⟨(sole_informed h n).1.idle he hend, .fresh rfl rfl rfl rfl⟩

end

/-- Whatever a server and the network do, and however the frames come: once an update has taken the news of an end, the
    player has no connection, and is told and receives nothing more. All that it will ever apply are states that had
    come in by then and that no tick had looked at. If a new buffer cannot begin with these, for which one of them would
    have to be a full state, the view is empty at the end of that update and of all later ones, and nothing is applied
    any more; and if it can, the first tick that comes applies one of them. -/
theorem turns_lost {settings : Settings} {n n₀ : Network} {remote : Address} {username : String} {p₀ : Player}
    (connected : connect n remote username settings = (.ok p₀, n₀)) (before later : List Turn) (frame : Nat)
    {e : NetEvent} (taken : e ∈ (turns (p₀, n₀) before).1.news (turns (p₀, n₀) before).2) (isEnd : e.isEnd = true) :
    let s := turns (p₀, n₀) before
    let xs := s.1.waiting s.2
    let b := s.1.buffer.reset.takeIn xs 0
    let p := (turns s (.update frame :: later)).1
    (∀ id, p.manager.connections.isLive id = false) ∧
    (∀ n, p.news n = [] ∧ ∀ x ∈ p.waiting n, x ∈ xs) ∧
    (∀ x, p.buffer.lastApplied = some x → x ∈ xs) ∧
    (b.Begins → ∃ x ∈ xs, x.isFull = true) ∧
    (¬ b.Begins → p.view = SortedMap.empty ∧ p.buffer.isWaiting = true ∧ p.stats.applied = s.1.stats.applied) ∧
    (b.Begins → p.stats = s.1.stats ∨ s.1.stats.applied < p.stats.applied) := by
  intro s xs b p
  obtain ⟨id, hsole⟩ := sole_connect connected
  obtain ⟨told, hsole⟩ := sole_turns (s := (p₀, n₀)) hsole before
  have hlost : Lost s.1.buffer.settings xs s.1.stats p :=
    Lost.turns (s := turn s (.update frame)) ((lost_informed hsole taken isEnd).update frame) later
  have hidle := hlost.idle
  refine ⟨fun id => ?_, fun n => ⟨?_, fun x hx => ?_⟩, hlost.aftermath.applied, StateBuffer.Begins.full,
    hlost.aftermath.stuck, hlost.aftermath.begun⟩
  · rw [ConnectionTable.isLive, hidle.gone id]
    rfl
  · rw [news, hidle.process]
    exact hidle.silent
  · rw [waiting, hidle.process] at hx
    exact hlost.aftermath.left x hx

/-! ### Somebody who listens -/

/-- A network on which somebody listens. -/
def listener : Address := Network.loopback 1

def hall : Network := (Network.calm.act (.bind listener)).act (.start listener)

/-- A player that begins with the first full state. -/
def eager : Settings := { Settings.initial with buffer := { Settings.initial.buffer with minSize := 1 } }

theorem connect_hall {settings : Settings} (h : (connect hall listener "ann" settings).1.toOption.isSome = true) :
    connect hall listener "ann" settings =
      (.ok ((connect hall listener "ann" settings).1.toOption.get h), (connect hall listener "ann" settings).2) := by
  refine Prod.ext ?_ rfl
  generalize (connect hall listener "ann" settings).1 = result at h
  cases result with
  | error e => cases h
  | ok p => rfl

theorem connect_eager : (connect hall listener "ann" eager).1.toOption.isSome = true := by decide +kernel

def visitor : Player := (connect hall listener "ann" eager).1.toOption.get connect_eager

/-- The network once the player has asked to be let in. -/
def lobby : Network := (connect hall listener "ann" eager).2

theorem connect_visitor : connect hall listener "ann" eager = (.ok visitor, lobby) := connect_hall connect_eager

/-- The listener sends frames to the player. -/
def say (frames : List Bytes) (n : Network) : Network :=
  frames.foldl (fun n bytes => n.act (.send listener ⟨2⟩ bytes .ordered)) n

def tableFrame : Bytes := Frame.encode StringTable.bootstrapId (Archive.encodeEntries table.entries)

def stateFrame (x : GameState) : Bytes := Frame.encode Server.stateId (Archive.encodeState x)

/-- The player is let in, but for the name table. -/
def greeting : List Turn :=
  [.others (·.act (.approve listener ⟨2⟩)), .update 0, .others (say [Manager.textBytes "ann"]), .update 0]

/-- Of what has come to the player, the name table is the first, and there is as much more. -/
def Greeted (s : Player × Network) (more : Nat) : Prop :=
  AwaitsTable s.1.manager s.2 (Network.loopback Network.firstPort) ⟨1⟩ ⟨0⟩ ⟨⟨0⟩, "ann", listener⟩ more

instance (s : Player × Network) (more : Nat) : Decidable (Greeted s more) :=
  inferInstanceAs (Decidable (AwaitsTable ..))

theorem Greeted.process {s : Player × Network} {more : Nat} (h : Greeted s more) : s.1.manager.process s.2 =
    Manager.drain { s.1.manager with strings := table.lock } (s.2.poll (Network.loopback Network.firstPort)).2 0
      (Network.loopback Network.firstPort) more :=
  process_table h

/-! ### What had come in before -/

def firstState : GameState := { GameState.full 1 with entities := [⟨1, []⟩] }

/-- The player is let in and is sent the name table and a state. -/
def meeting : List Turn := greeting ++ [.others (say [tableFrame, stateFrame firstState])]

def met : Player × Network := turns (visitor, lobby) meeting

theorem greeted_met : Greeted met 2 := by decide +kernel

/-- It is cut off before it has looked at them. -/
def cutOff : List Turn := meeting ++ [.others (·.act (.disconnect listener ⟨2⟩ "bye"))]

def visited : Player × Network := turns (visitor, lobby) cutOff

theorem greeted_visited : Greeted visited 2 := by decide +kernel

/-- The update that takes the news of the end applies a state all the same. -/
theorem turns_lost_cutOff : connect hall listener "ann" eager = (.ok visitor, lobby) ∧
    visited.1.news visited.2 = [.disconnected ⟨0⟩ "ann" "bye"] ∧
    let p := (turn visited (.update 16666667)).1
    p.view ≠ SortedMap.empty ∧ p.buffer.lastApplied = some firstState ∧ visited.1.stats.applied = 0 ∧
      p.stats.applied = 1 := by
  refine ⟨connect_visitor, ?_⟩
  rw [news, turn_update, update_eq, informed, greeted_visited.process]
  decide +kernel

/-! ### What cannot begin anew -/

/-- The listener is gone before it has let the player in. -/
def refused : Player × Network := turns (visitor, lobby) [.others (·.act (.close listener))]

/-- The player has applied a state, and is sent the next, a delta, before it is cut off. -/
def parting : List Turn :=
  [.update 16666667, .others (say [stateFrame (GameState.blank 1 2)]),
    .others (·.act (.disconnect listener ⟨2⟩ "bye"))]

def parted : Player × Network := turns (visitor, lobby) (meeting ++ parting)

theorem news_parted : parted.1.news parted.2 = [.disconnected ⟨0⟩ "ann" "bye"] ∧
    parted.1.waiting parted.2 = [GameState.blank 1 2] ∧ parted.1.view ≠ SortedMap.empty ∧
    parted.1.stats.applied = 1 ∧ ¬ (parted.1.buffer.reset.takeIn (parted.1.waiting parted.2) 0).Begins := by
  rw [parted, turns_append, parting, turns_cons, turn_update, update_eq, informed, show turns _ _ = met from rfl,
    greeted_met.process]
  decide +kernel

/-- A player that is refused has nothing, and one that is cut off before it has looked at a delta has nothing left. -/
theorem turns_lost_stuck : connect hall listener "ann" eager = (.ok visitor, lobby) ∧
    (.connectFailed listener "endpoint closed" ∈ refused.1.news refused.2 ∧
      let p := (turns refused [.update 0, .update 16666667]).1
      p.view = SortedMap.empty ∧ p.buffer.isWaiting = true ∧ p.stats.applied = refused.1.stats.applied) ∧
    parted.1.view ≠ SortedMap.empty ∧ parted.1.stats.applied = 1 ∧ parted.1.waiting parted.2 = [GameState.blank 1 2] ∧
    .disconnected ⟨0⟩ "ann" "bye" ∈ parted.1.news parted.2 ∧
    let p := (turns parted [.update 0, .update 16666667]).1
    p.view = SortedMap.empty ∧ p.buffer.isWaiting = true ∧ p.stats.applied = parted.1.stats.applied := by
  refine ⟨connect_visitor, ?_, ?_⟩
  · have taken : .connectFailed listener "endpoint closed" ∈ refused.1.news refused.2 := by decide +kernel
    have hstuck : ¬ (refused.1.buffer.reset.takeIn (refused.1.waiting refused.2) 0).Begins := by decide +kernel
    obtain ⟨-, -, -, -, hempty, -⟩ := turns_lost connect_visitor [.others (·.act (.close listener))] [.update 16666667] 0
      taken rfl
    exact ⟨taken, hempty hstuck⟩
  · obtain ⟨hnews, hwaiting, hview, happlied, hstuck⟩ := news_parted
    have taken : .disconnected ⟨0⟩ "ann" "bye" ∈ parted.1.news parted.2 := by
      rw [hnews]
      exact List.mem_singleton_self _
    obtain ⟨-, -, -, -, hempty, -⟩ := turns_lost connect_visitor (meeting ++ parting) [.update 16666667] 0 taken rfl
    rw [show turns (visitor, lobby) (meeting ++ parting) = parted from rfl] at hempty
    exact ⟨hview, happlied, hwaiting, taken, hempty hstuck⟩

end Player
end StateSync
