import StateSync.Proofs.Settings
import StateSync.Proofs.System.Attendance
import StateSync.Proofs.System.Deeds

/-! A manager of either side on a network on which anybody else does what they like, at any moment between its calls. No
    link ever joins two of its transports: those of a server have no links but such as others asked for, and a client
    has one transport at the most (`apart_partake`). So whatever is on its way to it, it can handle all of it
    (`partake_process`). -/

namespace StateSync

variable {δ : Type}

/-- The transport that a manager is given in a turn, to connect by. -/
def Turn.given : Turn δ → Option Address
  | .call (.connect h _ _) _ => some h
  | _ => none

namespace Manager
variable {m m' : Manager Address δ} {n n' : Network} {a : Address} {W : Bytes → Prop}

/-- A turn of a manager of either side. A transport that it is given is one that there is. -/
def partake (s : Manager Address δ × Network) (t : Turn δ) : Manager Address δ × Network :=
  if t.given.all s.2.isBound then attend s t else s

theorem Attends.partake (h : m.Attends n) (t : Turn δ) :
    let r := Manager.partake (m, n) t
    r.1.Attends r.2 := by
  unfold Manager.partake
  split
  · exact h.turn t
  · exact h

/-! ### Clients -/

theorem Does.length_transports (hd : Does W m n m' n') (hm : m.Sound) (hs : m.isServer = false) :
    m'.transports.length ≤ m.transports.length := by
  cases hd with
  | @handles i a e n₁ place polled =>
    obtain ⟨id, hid⟩ := handleEvent_handles hm (List.getElem?_eq_some_iff.mp place).1 n₁ a e
    exact Nat.le_of_eq (congrArg _ hid.transports)
  | stirs connections pending side transports table own quiet acted => exact Nat.le_of_eq (congrArg _ transports)
  | ends live place reason => exact Nat.le_of_eq (congrArg _ (teardown_keeps m _ reason).1)
  | opens server idle grown nodup acted => cases hs.symm.trans server
  | shuts advances transports strings reason =>
    rw [transports]
    exact Nat.zero_le _
  | _ => exact Nat.le_refl _

/-- What holds of a client between two events, whatever others do: it has one transport at the most. -/
structure Visits (m : Manager Address δ) (n : Network) : Prop where
  sound : m.Sound
  client : m.isServer = false
  net : n.Sound
  single : m.transports.length ≤ 1

namespace Visits

theorem create (settings : Settings) (luck : Nat → Luck) :
    (Manager.create .client settings : Manager Address δ).Visits (Network.create luck) :=
  ⟨sound_create .client settings, rfl, Network.sound_create luck, Nat.zero_le _⟩

theorem apart (h : m.Visits n) : m.Apart n := by
  have hsingle := h.single
  refine ⟨h.sound, h.net, ?_, fun {a p b q st} ha hw hb => ?_⟩
  · match hts : m.transports with
    | [] => exact List.nodup_nil
    | [_] => exact List.nodup_singleton _
    | _ :: _ :: _ =>
      rw [hts] at hsingle
      exact absurd hsingle (by simp)
  · obtain ⟨c, hc⟩ : ∃ c, m.transports = [c] :=
      List.length_eq_one_iff.mp (Nat.le_antisymm hsingle (List.length_pos_of_mem ha))
    rw [hc] at ha hb
    exact h.net.apart hw ((List.mem_singleton.mp hb).trans (List.mem_singleton.mp ha).symm)

theorem does (h : m.Visits n) (hd : Does W m n m' n') (hadv : Advances m m') : m'.Visits n' where
  sound := hadv.sound
  client := hadv.isServer.trans h.client
  net := (hd.acted h.sound).sound h.net
  single := Nat.le_trans (hd.length_transports h.sound h.client) h.single

theorem next (h : m.Visits n) (i : Nat) : (m.next n i).1.Visits (m.next n i).2 :=
  h.does (next_does (fun _ => False) m n i) (next_advances h.sound n i)

theorem process (h : m.Visits n) : (m.process n).1.Visits (m.process n).2 :=
  process_induction (P := Visits) h.sound h fun i _ h => h.next i

/-- The transport by which a client connects takes the place of the one before it. -/
theorem connect (h : m.Visits n) (hb : n.isBound a = true) (remote : Address) (username : String) :
    let r := (m.connect n a remote username).2
    r.1.Visits r.2 := by
  have hdials := connect_dials h.sound h.client h.net hb remote username
  have hadv := connect_advances h.sound n a remote username
  dsimp only
  generalize (m.connect n a remote username).2.1 = m' at hdials hadv ⊢
  generalize (m.connect n a remote username).2.2 = n' at hdials ⊢
  cases hdials with
  | refused quiet => exact ⟨h.sound, h.client, ((h.net.quiet quiet).close a).2.1, h.single⟩
  | asked idle quiet asked =>
    exact ⟨hadv.sound, hadv.isServer.trans h.client, (asked.sound.closeAll m.transports).2.1, Nat.le_refl 1⟩

theorem perform (h : m.Visits n) {c : Call Network Address δ} (hin : c.IsInside)
    (hb : ∀ a remote username, c = .connect a remote username → n.isBound a = true) :
    let r := Manager.perform (m, n) c
    r.1.Visits r.2 := by
  have hstep : c.IsStep → (Manager.perform (m, n) c).1.Visits (Manager.perform (m, n) c).2 := fun hc =>
    h.does (perform_does h.sound h.net hc) (perform_advances h.sound n c)
  cases c with
  | connect a remote username => exact h.connect (hb a remote username rfl) remote username
  | process => exact h.process
  | outside n' => cases hin
  | _ => exact hstep trivial

theorem partake (h : m.Visits n) (t : Turn δ) :
    let r := Manager.partake (m, n) t
    r.1.Visits r.2 := by
  unfold Manager.partake attend
  split
  · rename_i hgiven
    split
    · exact h
    · cases t with
      | call c hin =>
        refine h.perform hin fun a remote username heq => ?_
        subst heq
        exact hgiven
      | act x => exact ⟨h.sound, h.client, h.net.act x, h.single⟩
  · exact h

end Visits

/-! ### Every moment -/

/-- What holds at first and is kept by every turn holds at any moment. -/
theorem partakes_induction {P : Manager Address δ → Network → Prop} {s : Manager Address δ × Network} (h : P s.1 s.2)
    (hstep : ∀ {m n}, P m n → ∀ t, P (partake (m, n) t).1 (partake (m, n) t).2) (ts : List (Turn δ)) :
    let r := ts.foldl partake s
    P r.1 r.2 :=
  List.foldlRecOn (motive := fun s => P s.1 s.2) ts partake h fun _ h t _ => hstep h t

theorem apart_partake (side : Side) (settings : Settings) (luck : Nat → Luck) (ts : List (Turn δ)) :
    let s := ts.foldl partake (create side settings, Network.create luck)
    s.1.Apart s.2 := by
  cases side with
  | server => exact (partakes_induction (P := Attends) (Attends.create settings luck) (fun h => h.partake) ts).apart
  | client => exact (partakes_induction (P := Visits) (Visits.create settings luck) (fun h => h.partake) ts).apart

/-- Whatever a manager was called upon to do before, and whatever others have done on its network: when it handles its
    events, the loop over each of its transports ends, however much time passes between two looks at an inbox. It
    handles no more events than could come at first, its transports stay, and nothing that was due when it began is left
    in any of their inboxes. If no time passes, this is how all events are handled, and afterwards none is due at any of
    its transports. If no delay that is simulated at its transports can run over its 32 bits, none does on the way, and
    so a build that checks its sums goes through to the end too. -/
theorem partake_process (side : Side) (settings : Settings) (luck : Nat → Luck) (ts : List (Turn δ)) :
    let s := ts.foldl partake (create side settings, Network.create luck)
    (∀ pass : Nat → Nat, (∃ es r, EmptiesAll pass 0 0 s.1.transports s es r) ∧
      ∀ es r, EmptiesAll pass 0 0 s.1.transports s es r →
        es.length ≤ (s.1.transports.map s.2.backlog).sum ∧ r.1.transports = s.1.transports ∧
          (∀ a ∈ r.1.transports, ∀ x ∈ r.2.inbox a, s.2.clock < x.release) ∧
          ((∀ a ∈ s.1.transports, s.2.Fits a) → r.2.overran = s.2.overran)) ∧
    let r := s.1.process s.2
    (∃ es, EmptiesAll (fun _ => 0) 0 0 s.1.transports s es r) ∧ r.1.transports = s.1.transports ∧
      r.2.clock = s.2.clock ∧ (∀ a ∈ r.1.transports, ∀ x ∈ r.2.inbox a, r.2.clock < x.release) ∧
      ((∀ a ∈ s.1.transports, s.2.Fits a) → r.2.overran = s.2.overran) := by
  intro s
  have h : s.1.Apart s.2 := apart_partake side settings luck ts
  refine ⟨fun pass => ⟨h.exists_emptiesAll rfl pass 0, fun es r hr => ?_⟩, ?_⟩
  · have hemptied := hr.emptied h rfl
    exact ⟨hemptied.count, hemptied.transports, fun a ha => hemptied.past a (hemptied.transports ▸ ha),
      fun hf => (hemptied.smooth hf).overran⟩
  · obtain ⟨hloop, htransports, hclock, hdrained, hsmooth⟩ := h.process
    exact ⟨hloop, htransports, hclock, fun a ha => hdrained (htransports ▸ ha), fun hf => (hsmooth hf).overran⟩

/-- A peer asks for a connection, and says by which name. -/
def naming : List (Turn Unit) :=
  let server : Address := ⟨Host.loopback, Settings.defaultPort⟩
  let peer : Address := Network.loopback Network.firstPort
  [.call .start trivial,
    .act .bindAny,
    .act (.connect peer server),
    .call .process trivial,
    .act (.send peer ⟨1⟩ (textBytes "ann") .ordered)]

def delayed (latencies : List (String × String)) : Settings :=
  { Settings.initial with hosts := "127.0.0.1" }.setAll latencies

/-- With up to 45 milliseconds of delay the name is answered, and the answer is under way. -/
theorem partake_process_naming :
    let settings := delayed [("net.sim_min_latency", "20"), ("net.sim_max_latency", "40"), ("net.sim_jitter", "5")]
    let s := naming.foldl partake (create .server settings, Network.create fun _ => ⟨0, 9999, 9999⟩)
    let r := s.1.process s.2
    s.1.transports = [⟨Host.loopback, Settings.defaultPort⟩] ∧ (∀ a ∈ s.1.transports, s.2.Fits a) ∧
      r.2.overran = false ∧ (∀ a ∈ r.1.transports, ∀ x ∈ r.2.inbox a, r.2.clock < x.release) ∧
      (r.2.inbox (Network.loopback Network.firstPort)).map (·.release) = [0, 43000000] := by
  intro settings
  obtain ⟨-, -, -, -, hdrained, hsmooth⟩ := partake_process .server settings (fun _ => ⟨0, 9999, 9999⟩) naming
  dsimp only at hdrained hsmooth ⊢
  generalize hs : naming.foldl partake (create .server settings, Network.create fun _ => ⟨0, 9999, 9999⟩) = s
    at hdrained hsmooth ⊢
  have htransports : s.1.transports = [⟨Host.loopback, Settings.defaultPort⟩] := by
    rw [← hs]
    decide +kernel
  have himpairment : s.2.impairment? ⟨Host.loopback, Settings.defaultPort⟩ = some settings.impairment := by
    rw [← hs]
    decide +kernel
  have hlatest : settings.impairment.latest < UInt32.size := by decide +kernel
  have hfits : ∀ a ∈ s.1.transports, s.2.Fits a := by
    intro a ha i hi
    rw [htransports] at ha
    rw [List.mem_singleton.mp ha, himpairment] at hi
    obtain rfl := Option.some.inj hi
    exact Impairment.fits_of_latest_lt hlatest
  refine ⟨htransports, hfits, (hsmooth hfits).trans ?_, hdrained, ?_⟩ <;> rw [← hs] <;> decide +kernel

/-- With latencies that the settings admit, and a roll that is not the least, the delay of the answer runs over. -/
theorem process_overran :
    let settings := delayed [("net.sim_min_latency", "4294967295"), ("net.sim_max_latency", "1"),
      ("net.sim_jitter", "4294967295")]
    let s := naming.foldl partake (create .server settings, Network.create fun _ => ⟨0, 9999, 9999⟩)
    settings.minLatency = 4294967295 ∧ settings.maxLatency = 1 ∧ settings.jitter = 4294967295 ∧
      s.2.overran = false ∧ (s.1.process s.2).2.overran = true := by
  decide +kernel

end Manager
end StateSync
