import StateSync.Manager.Handshake

/-! Starting a server, opening a client's connection, and shutting down. -/

namespace StateSync.Manager
variable {μ ι δ : Type} [Medium μ ι]

def closeAll (w : μ) (hs : List ι) : μ := hs.foldl Medium.close w

/-- Puts the settings that concern transports into force on one of them. -/
def tune (w : μ) (s : Settings) (h : ι) : μ := Medium.setRateLimit (Medium.setImpairment w h s.impairment) h s.rateLimit

/-- Opens and starts a transport at each address. If one cannot be, those already open are given up. -/
def openAll (s : Settings) (w : μ) (opened : List ι) : List Address → Except NetError (List ι) × μ
  | [] => (.ok opened, w)
  | addr :: addrs =>
    match Medium.bind w addr with
    | (.error e, w) => (.error e, closeAll w opened)
    | (.ok h, w) =>
      match Medium.start (tune w s h) h with
      | (.error e, w) => (.error e, closeAll (Medium.close w h) opened)
      | (.ok _, w) => openAll s w (opened ++ [h]) addrs

/-- Starts a server: a transport listens at each address of the settings. -/
def start (m : Manager ι δ) (w : μ) : Except NetError Unit × Manager ι δ × μ :=
  if !m.isServer then (.error (.wrongSide .startServer), m, w)
  else if m.isRunning then (.error .alreadyRunning, m, w)
  else
    match m.settings.addresses with
    | .error e => (.error (.config e), m, w)
    | .ok addrs =>
      match openAll m.settings w [] addrs with
      | (.error e, w) => (.error e, m, w)
      | (.ok hs, w) => (.ok (), { m with transports := hs }, w)

/-- Opens a client's connection over a transport made for it, in the place of the transport before it. A
    transport that is not taken is given up. -/
def connect (m : Manager ι δ) (w : μ) (h : ι) (remote : Address) (username : String) :
    Except NetError ConnectionId × Manager ι δ × μ :=
  if m.isServer then (.error (.wrongSide .connectClient), m, Medium.close w h)
  else if 0 < m.connections.peerCount then (.error .alreadyRunning, m, Medium.close w h)
  else
    match Medium.connect (tune w m.settings h) h remote with
    | (.error e, w) => (.error e, m, Medium.close w h)
    | (.ok peer, w) =>
      let w := closeAll w m.transports
      let (id, connections) := m.connections.insert 0 peer remote .connecting
      (.ok id,
        { m with transports := [h], strings := StringTable.create, username := username, connections := connections },
        w)

def disconnect (m : Manager ι δ) (w : μ) (id : ConnectionId) (reason : String) :
    Except NetError Unit × Manager ι δ × μ :=
  if m.connections.isLive id then
    let (m, w) := m.reject w id reason
    (.ok (), m, w)
  else (.error (.noChannel id), m, w)

/-- Changes a setting while running. Those that concern transports come into force at once. -/
def changeSetting (m : Manager ι δ) (w : μ) (key value : String) : Except NetError Unit × Manager ι δ × μ :=
  match m.settings.set key value with
  | (.error e, s) => (.error (.config e), { m with settings := s }, w)
  | (.ok _, s) => (.ok (), { m with settings := s }, m.transports.foldl (fun w h => tune w s h) w)

/-- Forgets all connections and gives the transports up. The wait for the transports to finish is no more
    than a wait, and leaves no trace. -/
def shutdown (m : Manager ι δ) (w : μ) (reason : String) : Manager ι δ × μ :=
  if !m.isRunning then (m, w)
  else
    let m := (m.connections.live.map (·.id)).foldl (fun m id => m.teardown id reason) m
    let w := m.transports.foldl (fun w h => Medium.shutdown w h reason) w
    ({ m with transports := [] }, closeAll w m.transports)

/-- Gives a manager up without a word: its transports close. -/
def discard (m : Manager ι δ) (w : μ) : μ := closeAll w m.transports

end StateSync.Manager
