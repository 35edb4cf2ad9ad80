import StateSync.Proofs.System.Attendance
import StateSync.Proofs.System.Calls
import StateSync.Proofs.System.Deeds

/-! A server and a client on one network, on which anybody else does what they like. Each of the two may be called upon
    at any time, and handles its events one by one (`Duet.Move`). What holds of the two managers by themselves, whatever
    happens (`Duet.Sound`). -/

namespace StateSync
open Network (Act Acted Cut Deals Grown Asked Quiet)

variable {δ ε : Type}

namespace Manager.Call
variable {μ ι : Type} {c : Manager.Call μ ι δ}

/-- A call that has nothing to do with transports made by others. -/
def IsPlain : Manager.Call μ ι δ → Prop
  | .connect .. | .outside _ => False
  | _ => True

theorem IsOrdinary.isPlain (h : c.IsOrdinary) : c.IsPlain := by
  cases c with
  | connect h' remote username => cases h
  | outside w => cases h
  | _ => trivial

theorem IsPlain.step_or (h : c.IsPlain) : c.IsStep ∨ c = .process := by
  cases c with
  | connect h' remote username => cases h
  | outside w => cases h
  | process => exact Or.inr rfl
  | _ => exact Or.inl trivial

end Manager.Call

/-! ### The two and the network -/

structure Duet (δ ε : Type) where
  server : Manager Address δ
  client : Manager Address ε
  net : Network

namespace Duet
variable {s : Duet δ ε} {m : Manager Address δ} {m' : Manager Address ε} {n : Network} {W : Bytes → Prop}

def create (settings settings' : Settings) (luck : Nat → Luck) : Duet δ ε :=
  ⟨.create .server settings, .create .client settings', .create luck⟩

def serve (s : Duet δ ε) (c : Manager.Call Network Address δ) : Duet δ ε :=
  let (m, n) := Manager.perform (s.server, s.net) c
  { s with server := m, net := n }

def engage (s : Duet δ ε) (c : Manager.Call Network Address ε) : Duet δ ε :=
  let (m, n) := Manager.perform (s.client, s.net) c
  { s with client := m, net := n }

/-- The client binds a transport, at an address or anywhere, and connects by it. -/
def dial (s : Duet δ ε) (addr : Option Address) (remote : Address) (username : String) : Duet δ ε :=
  match s.net.bindAt addr with
  | none => s
  | some (b, n) =>
    let (_, m, n) := s.client.connect n b remote username
    { s with client := m, net := n }

/-- Somebody else does something on the network. Nobody else has a hand on the transports of the two. -/
def disturb (s : Duet δ ε) (x : Act) : Duet δ ε :=
  if x.site.any (· ∈ s.server.transports ++ s.client.transports) then s else { s with net := s.net.act x }

/-- What others do is done elsewhere. -/
theorem disturb_cases (s : Duet δ ε) (x : Act) : s.disturb x = s ∨ (s.disturb x = { s with net := s.net.act x } ∧
    x.Elsewhere fun a => a ∈ s.server.transports ∨ a ∈ s.client.transports) := by
  unfold disturb
  split
  · exact Or.inl rfl
  · rename_i hsite
    refine Or.inr ⟨rfl, fun a ha hmem => hsite ?_⟩
    rw [ha, Option.any_some, decide_eq_true_iff, List.mem_append]
    exact hmem

/-! ### What holds by itself -/

/-- The server attends its transports, the client has one connection at the most, and no transport is shared. -/
structure Sound (s : Duet δ ε) : Prop where
  server : s.server.Attends s.net
  table : s.server.strings.Sound
  client : Party.Fits (κ := Unit) (.client ()) s.client
  bound : ∀ {b}, b ∈ s.client.transports → s.net.isBound b = true
  known : ∀ {b q c}, s.client.at? b q = some c → q.val < s.net.nextPeer
  apart : ∀ {a}, a ∈ s.server.transports → a ∉ s.client.transports

theorem sound_create (settings settings' : Settings) (luck : Nat → Luck) :
    (create settings settings' luck : Duet δ ε).Sound where
  server := .create settings luck
  table := StringTable.sound_create
  client := System.fits_create (.client ()) settings'
  bound h := by cases h
  known h := (nomatch (Manager.at?_of_no_transports rfl _ _).symm.trans h)
  apart h := by cases h

namespace Sound

theorem side_server (h : s.Sound) : s.server.isServer = true := h.server.server

theorem side_client (h : s.Sound) : s.client.isServer = false :=
  eq_false_of_ne_true fun hs => (nomatch h.client.isServer.mp hs)

theorem net (h : s.Sound) : s.net.Sound := h.server.net

/-- What the server does is done elsewhere to the client. -/
theorem elsewhere_server (h : s.Sound) {x : Act} (hx : s.server.Within s.net W x) :
    x.Elsewhere (· ∈ s.client.transports) :=
  hx.elsewhere fun _ hb => ⟨h.bound hb, fun ha => h.apart ha hb⟩

theorem elsewhere_client (h : s.Sound) {x : Act} (hx : s.client.Within s.net W x) :
    x.Elsewhere (· ∈ s.server.transports) :=
  hx.elsewhere fun _ ha => ⟨h.server.bound ha, h.apart ha⟩

theorem of_server (h : s.Sound) (hm : m.Attends n) (htable : s.server.strings.Grows m.strings)
    (hacted : Acted (s.server.Within s.net W) s.net n) (htransports : ∀ a ∈ m.transports, s.server.Commands s.net a) :
    Sound { s with server := m, net := n } where
  server := hm
  table := htable.sound h.table
  client := h.client
  bound hb := (hacted.spares h.net fun _ => h.elsewhere_server).isBound hb (h.bound hb)
  known hc := Nat.lt_of_lt_of_le (h.known hc) hacted.continues.nextPeer
  apart {a} ha hb := by
    rcases htransports a ha with ha' | hfree
    · exact h.apart ha' hb
    · exact (nomatch hfree.symm.trans (h.bound hb))

theorem of_client (h : s.Sound) (hm : Party.Fits (κ := Unit) (.client ()) m')
    (hbound : ∀ {b}, b ∈ m'.transports → n.isBound b = true)
    (hknown : ∀ {b q c}, m'.at? b q = some c → (∃ c₀, s.client.at? b q = some c₀) ∨ q.val < n.nextPeer)
    (hacted : Acted (s.client.Within s.net W) s.net n) (htransports : ∀ b ∈ m'.transports, s.client.Commands s.net b) :
    Sound { s with client := m', net := n } where
  server := h.server.act (hacted.spares h.net fun _ => h.elsewhere_client)
  table := h.table
  client := hm
  bound := hbound
  known hc := by
    rcases hknown hc with ⟨c₀, hc₀⟩ | hlt
    · exact Nat.lt_of_lt_of_le (h.known hc₀) hacted.continues.nextPeer
    · exact hlt
  apart {a} ha hb := by
    rcases htransports a hb with hb' | hfree
    · exact h.apart ha hb'
    · exact (nomatch hfree.symm.trans (h.server.bound ha))

theorem does_server (h : s.Sound) {c : Manager.Call Network Address δ} (hc : c.IsStep) :
    s.server.Does (fun frame => c.Gives s.server frame) s.net (s.serve c).server (s.serve c).net :=
  Manager.perform_does h.server.sound h.net hc

theorem does_client (h : s.Sound) {c : Manager.Call Network Address ε} (hc : c.IsStep) :
    s.client.Does (fun frame => c.Gives s.client frame) s.net (s.engage c).client (s.engage c).net :=
  Manager.perform_does h.client.sound h.net hc

theorem serve (h : s.Sound) {c : Manager.Call Network Address δ} (hc : c.IsStep) : (s.serve c).Sound := by
  have hin : c.IsInside := by
    cases c with
    | outside n' => cases hc
    | _ => trivial
  have hdoes := h.does_server hc
  refine h.of_server (h.server.perform hin fun a ha => ?_) (hdoes.grows h.server.sound h.side_server)
    (hdoes.acted h.server.sound) (hdoes.commands h.server.sound)
  cases c with
  | connect b remote username => cases hc
  | _ => cases ha

theorem engage (h : s.Sound) {c : Manager.Call Network Address ε} (hc : c.IsStep) : (s.engage c).Sound := by
  have hdoes := h.does_client hc
  exact h.of_client (hdoes.fits h.client) (fun {b} => hdoes.bound h.client.sound h.net (fun _ => h.bound) b)
    (fun hc => Or.inl (hdoes.seat h.client hc)) (hdoes.acted h.client.sound) (hdoes.commands h.client.sound)

/-- What a dial comes to: nothing, or what the client's call comes to at a transport that stood nowhere before. -/
theorem dial_cases (h : s.Sound) (addr : Option Address) (remote : Address) (username : String) :
    s.dial addr remote username = s ∨ ∃ b n m n', s.dial addr remote username = { s with client := m, net := n' } ∧
      Grown s.net n [b] ∧ s.net.nextPeer ≤ n.nextPeer ∧ s.client.Dials n b remote username m n' ∧
        ∀ W, Acted (s.client.Within s.net W) s.net n' := by
  rcases hbind : s.net.bindAt addr with _ | ⟨b, n⟩
  · left
    rw [Duet.dial, hbind]
  · right
    obtain ⟨hgrown, -⟩ := h.net.bindAt hbind
    have hb : n.isBound b = true := (hgrown.isBound b).mpr (Or.inr (List.mem_singleton_self b))
    have hfree : s.client.Commands s.net b := Or.inr (hgrown.free b (List.mem_singleton_self b))
    have hbound : Acted (s.client.Within s.net fun _ => False) s.net n := Manager.bindAt_acted hbind
    refine ⟨b, n, (s.client.connect n b remote username).2.1, (s.client.connect n b remote username).2.2, ?_, hgrown,
      hbound.continues.nextPeer,
      Manager.connect_dials h.client.sound h.side_client hgrown.sound hb remote username, fun W => ?_⟩
    · rw [Duet.dial, hbind]
    · exact (Manager.bindAt_acted hbind).trans (Manager.connect_acted s.client s.net hfree hb remote username)

theorem dial (h : s.Sound) (addr : Option Address) (remote : Address) (username : String) :
    (s.dial addr remote username).Sound := by
  rcases h.dial_cases addr remote username with heq | ⟨b, n, m, n', heq, hgrown, -, hdials, hacted⟩
  · rw [heq]
    exact h
  · rw [heq]
    have hfree := hgrown.free b (List.mem_singleton_self b)
    have hnew : ∀ {a}, a ∈ s.client.transports → b ≠ a := by
      rintro a ha rfl
      exact (nomatch hfree.symm.trans (h.bound ha))
    cases hdials with
    | @refused n₁ quiet =>
      refine h.of_client h.client (fun {a} ha => ?_) (fun hc => Or.inl ⟨_, hc⟩) (hacted fun _ => False)
        fun a ha => Or.inl ha
      rw [((hgrown.sound.quiet quiet).close b).2.2, if_neg (hnew ha), quiet.isBound]
      exact (hgrown.isBound a).mpr (Or.inl (h.bound ha))
    | @asked n₁ n₂ p q idle quiet asked =>
      obtain ⟨hfits, c₀, hc₀, -⟩ := h.client.dialing idle b username p remote
      have hclosed : Network.Acted (fun _ => True) n₂ (s.client.transports.foldl Network.close n₂) :=
        .foldl (fun n a _ => .one (n := n) (x := .close a) trivial) n₂
      refine h.of_client hfits (fun {a} ha => ?_) (fun {a r c} hc => Or.inr ?_) (hacted fun _ => False) fun a ha => ?_
      · obtain rfl := List.mem_singleton.mp ha
        refine ((asked.sound.closeAll s.client.transports).2.2 a).mpr ⟨?_, fun ha' => hnew ha' rfl⟩
        rw [asked.alike.isBound, quiet.isBound]
        exact (hgrown.isBound a).mpr (Or.inr (List.mem_singleton_self a))
      · obtain ⟨-, rfl⟩ := hfits.single h.side_client hc hc₀
        exact Nat.lt_of_lt_of_le (asked.sound.fresh asked.wire) hclosed.continues.nextPeer
      · obtain rfl := List.mem_singleton.mp ha
        exact Or.inr hfree

theorem disturb (h : s.Sound) (x : Act) : (s.disturb x).Sound := by
  rcases s.disturb_cases x with heq | ⟨heq, hx⟩
  · rw [heq]
    exact h
  · rw [heq]
    have hspares := h.net.spares x fun a ha hmem => hx a ha (Or.inr hmem)
    refine ⟨h.server.act (h.net.spares x fun a ha hmem => hx a ha (Or.inl hmem)), h.table, h.client,
      fun hb => hspares.isBound hb (h.bound hb), fun hc => ?_, h.apart⟩
    exact Nat.lt_of_lt_of_le (h.known hc) (Network.continues_act s.net x).nextPeer

end Sound

/-! ### Moves -/

inductive Move (δ ε : Type) : Type 1 where
  /-- The name table is not among the messages of a server's application. -/
  | serve (c : Manager.Call Network Address δ) (ordinary : c.IsOrdinary)
  | engage (c : Manager.Call Network Address ε) (plain : c.IsPlain)
  | dial (addr : Option Address) (remote : Address) (username : String)
  | disturb (x : Act)

def perform (s : Duet δ ε) : Move δ ε → Duet δ ε
  | .serve c _ => s.serve c
  | .engage c _ => s.engage c
  | .dial addr remote username => s.dial addr remote username
  | .disturb x => s.disturb x

def run (s : Duet δ ε) (moves : List (Move δ ε)) : Duet δ ε := moves.foldl perform s

/-! ### What is kept step by step -/

theorem foldl_serve (s : Duet δ ε) (calls : List (Manager.Call Network Address δ)) : calls.foldl serve s =
    { s with server := (Manager.run (s.server, s.net) calls).1, net := (Manager.run (s.server, s.net) calls).2 } := by
  induction calls generalizing s with
  | nil => rfl
  | cons c calls ih => exact ih (s.serve c)

theorem foldl_engage (s : Duet δ ε) (calls : List (Manager.Call Network Address ε)) : calls.foldl engage s =
    { s with client := (Manager.run (s.client, s.net) calls).1, net := (Manager.run (s.client, s.net) calls).2 } := by
  induction calls generalizing s with
  | nil => rfl
  | cons c calls ih => exact ih (s.engage c)

/-- To handle all events that are due is to handle one after the other. -/
theorem serve_process (hm : s.server.Sound) :
    ∃ places : List Nat, s.serve .process = (places.map .next).foldl serve s := by
  obtain ⟨places, hplaces⟩ := Manager.process_eq_run hm s.net
  refine ⟨places, ?_⟩
  rw [foldl_serve, ← hplaces]
  rfl

theorem engage_process (hm : s.client.Sound) :
    ∃ places : List Nat, s.engage .process = (places.map .next).foldl engage s := by
  obtain ⟨places, hplaces⟩ := Manager.process_eq_run hm s.net
  refine ⟨places, ?_⟩
  rw [foldl_engage, ← hplaces]
  rfl

/-- What is kept by every event and every other call of the server's, by those of a kind of the client's, when the
    client dials, and by others. -/
structure Keeps (C : Manager.Call Network Address ε → Prop) (P : Duet δ ε → Prop) : Prop where
  serve : ∀ {s : Duet δ ε} {c : Manager.Call Network Address δ}, s.Sound → c.IsStep → c.IsOrdinary → P s → P (s.serve c)
  engage : ∀ {s : Duet δ ε} {c : Manager.Call Network Address ε}, s.Sound → c.IsStep → C c → P s → P (s.engage c)
  dial : ∀ {s : Duet δ ε} addr remote username, s.Sound → P s → P (s.dial addr remote username)
  disturb : ∀ {s : Duet δ ε} x, s.Sound → P s → P (s.disturb x)

/-- The client makes calls of a kind only. -/
def Move.Engages (C : Manager.Call Network Address ε → Prop) : Move δ ε → Prop
  | .engage c _ => C c
  | _ => True

namespace Keeps
variable {C : Manager.Call Network Address ε → Prop} {P : Duet δ ε → Prop}

theorem serves (hP : Keeps C P) (h : s.Sound) (hs : P s) (places : List Nat) :
    ((places.map .next).foldl Duet.serve s).Sound ∧ P ((places.map .next).foldl Duet.serve s) := by
  induction places generalizing s with
  | nil => exact ⟨h, hs⟩
  | cons i places ih => exact ih (h.serve (c := .next i) trivial) (hP.serve h trivial trivial hs)

theorem engages (hP : Keeps C P) (hC : ∀ i, C (.next i)) (h : s.Sound) (hs : P s) (places : List Nat) :
    ((places.map .next).foldl Duet.engage s).Sound ∧ P ((places.map .next).foldl Duet.engage s) := by
  induction places generalizing s with
  | nil => exact ⟨h, hs⟩
  | cons i places ih => exact ih (h.engage (c := .next i) trivial) (hP.engage h trivial (hC i) hs)

theorem perform (hP : Keeps C P) (hC : ∀ i, C (.next i)) (h : s.Sound) (hs : P s) {move : Move δ ε}
    (hmove : move.Engages C) : (s.perform move).Sound ∧ P (s.perform move) := by
  cases move with
  | serve c ordinary =>
    rcases ordinary.isPlain.step_or with hstep | rfl
    · exact ⟨h.serve hstep, hP.serve h hstep ordinary hs⟩
    · obtain ⟨places, heq⟩ := serve_process h.server.sound
      rw [Duet.perform, heq]
      exact hP.serves h hs places
  | engage c plain =>
    rcases plain.step_or with hstep | rfl
    · exact ⟨h.engage hstep, hP.engage h hstep hmove hs⟩
    · obtain ⟨places, heq⟩ := engage_process h.client.sound
      rw [Duet.perform, heq]
      exact hP.engages hC h hs places
  | dial addr remote username => exact ⟨h.dial addr remote username, hP.dial addr remote username h hs⟩
  | disturb x => exact ⟨h.disturb x, hP.disturb x h hs⟩

theorem run (hP : Keeps C P) (hC : ∀ i, C (.next i)) (h : s.Sound) (hs : P s) {moves : List (Move δ ε)}
    (hmoves : ∀ move ∈ moves, move.Engages C) : (s.run moves).Sound ∧ P (s.run moves) := by
  induction moves generalizing s with
  | nil => exact ⟨h, hs⟩
  | cons move moves ih =>
    obtain ⟨h', hs'⟩ := hP.perform hC h hs (hmoves move List.mem_cons_self)
    exact ih h' hs' fun x hx => hmoves x (List.mem_cons_of_mem move hx)

/-- What every call of the client's keeps is kept in every run. -/
theorem run_all (hP : Keeps (fun _ => True) P) (h : s.Sound) (hs : P s) (moves : List (Move δ ε)) :
    (s.run moves).Sound ∧ P (s.run moves) :=
  hP.run (fun _ => trivial) h hs fun move _ => by cases move <;> trivial

end Keeps
end Duet
end StateSync
