import StateSync.Proofs.Connection.Suffix
import StateSync.Proofs.Manager.Sessions
import StateSync.Transport.Script

/-! The session names of a server are made of the characters of user names, and of the rules for user names a session
    name can break only the one on its length: when a number stands behind it (`run_nameRules`). -/

namespace StateSync

theorem ConnectionTable.length_sessionNames_lt {t : ConnectionTable} {id : ConnectionId} {c : Connection}
    (hget : t.get? id = some c) (hnone : c.session = none) : t.sessionNames.length < t.slots.length := by
  have hnamed : t.sessionNames.length < t.live.length :=
    List.length_filterMap_lt_length_iff_exists.mpr ⟨c, mem_live.mpr ⟨id, hget⟩, hnone⟩
  exact Nat.lt_of_lt_of_le hnamed (List.length_filterMap_le _ _)

variable {μ ι δ : Type}

namespace Chronicle
variable {k : Chronicle μ ι δ} {i : Nat} {h : ι} {s : Manager ι δ × μ} {es : List NetEvent}

/-- Each session has a name that was made from a valid user name, with a number no greater than that of the connections
    entered so far. -/
def Ruled (k : Chronicle μ ι δ) : Prop :=
  ∀ id name, k.manager.session? id = some name → SessionName.Issued k.manager.connections.slots.length name

theorem ruled_create (settings : Settings) (w : μ) : (create .server settings w : Chronicle μ ι δ).Ruled :=
  fun _ _ hname => nomatch hname

theorem Ruled.parts (hr : k.Ruled) (hp : Manager.Parts k.manager s.1 es) : (k.withState s).Ruled := fun id name hname =>
  (hr id name (hp.session? hname)).mono hp.ages.grown

variable [Medium μ ι]

theorem Ruled.handle (hr : k.Ruled) (hk : k.Fair) (hi : k.manager.transports[i]? = some h) (e : TransportEvent) :
    (k.handle i h e).Ruled := by
  obtain ⟨id, es, houtcome, hsettles, -⟩ := hk.handle_outcome hi e
  have hgrown := hsettles.connections.grown
  intro j name hname
  by_cases hj : j = id
  · subst hj
    rcases houtcome.session_cases (Manager.side_eq_server hk.server) with ⟨hsame, -⟩ | ⟨hnone, -⟩ |
      ⟨requested, fresh, hnone, -, hsome, rfl, hgrants⟩
    · exact (hr j name (hsame ▸ hname)).mono hgrown
    · cases hnone.symm.trans hname
    · obtain rfl := Option.some.inj (hsome.symm.trans hname)
      obtain ⟨c, bs, hget, -, -, hvalid, -⟩ := hgrants
      -- The connection that is named has no session yet, so there are fewer names than connections.
      rw [Manager.session?, hget] at hnone
      exact (SessionName.issued_resolve hvalid (ConnectionTable.length_sessionNames_lt hget hnone)).mono hgrown
  · rw [Manager.session?, hsettles.connections.get? hj] at hname
    exact (hr j name hname).mono hgrown

theorem keeps_ruled : Keeps (Ruled : Chronicle μ ι δ → Prop) :=
  ⟨fun e hk hr hi => hr.handle hk hi e, fun _ hr hp => hr.parts hp, fun hr => hr⟩

/-- After any calls on a server, with whatever its transports report: the name of a live session is not empty, and has
    only characters of user names. So it is a valid user name unless it is too long; then it is a valid user name with a
    number from two on behind it, which is no greater than that of the connections entered so far. -/
theorem run_nameRules (settings : Settings) (w : μ) (calls : List (Manager.Call μ ι δ)) :
    let k : Chronicle μ ι δ := (create .server settings w).run calls
    ∀ id c name, k.manager.connections.get? id = some c → c.session = some name →
      name ≠ "" ∧ (∀ x ∈ name.toList, Username.isNameChar x = true) ∧
      (Username.IsValid name ↔ name.length ≤ Username.maxLength) ∧
      (Username.IsValid name ∨ ∃ requested n, Username.IsValid requested ∧ 2 ≤ n ∧
        n ≤ k.manager.connections.slots.length ∧ name = SessionName.numbered requested n) ∧
      name.length ≤ Username.maxLength + 1 + (Nat.toDigits 10 k.manager.connections.slots.length).length := by
  intro k id c name hget hname
  obtain ⟨-, hruled⟩ := keeps_ruled.run (fair_create settings w) (ruled_create (δ := δ) settings w) calls
  have hissued := hruled id name (Manager.session?_eq_some_iff.mpr ⟨c, hget, hname⟩)
  refine ⟨hissued.ne_empty, hissued.isNameChar, hissued.isValid_iff, ?_, hissued.length_le⟩
  cases hissued with
  | asked valid => exact Or.inl valid
  | numbered valid second within => exact Or.inr ⟨_, _, valid, second, within, rfl⟩

/-- As long as a user name may be. -/
def longestName : String := "abcdefghijklmnopqrstuvwxyz_01234"

/-- Two peers come to a server and ask for the longest of names. -/
def crowded : List (Manager.Call Script Nat Unit) :=
  let join (p : Nat) : List TransportEvent :=
    [.approvalRequest ⟨p⟩, .connected ⟨p⟩ "", .data ⟨p⟩ (Manager.textBytes longestName)]
  [.start,
    .outside { Script.create with transports := [⟨⟨Host.loopback, Settings.defaultPort⟩, join 1 ++ join 2⟩] },
    .process]

theorem session?_crowded :
    let k := (create .server { Settings.initial with hosts := "127.0.0.1" } Script.create).run crowded
    k.manager.session? ⟨1⟩ = some "abcdefghijklmnopqrstuvwxyz_01234_2" := by
  decide +kernel

/-- The name of the second one is longer than a user name may be. -/
theorem run_nameRules_tooLong :
    let k := (create .server { Settings.initial with hosts := "127.0.0.1" } Script.create).run crowded
    ∃ c name, k.manager.connections.get? ⟨1⟩ = some c ∧ c.session = some name ∧ name.length = 34 ∧
      ¬ Username.IsValid name := by
  intro k
  obtain ⟨c, hget, hname⟩ := Manager.session?_eq_some_iff.mp session?_crowded
  exact ⟨c, _, hget, hname, by decide, fun hvalid => by cases hvalid⟩

/-- And it is a valid user name with a number behind it. -/
theorem run_nameRules_second :
    let k := (create .server { Settings.initial with hosts := "127.0.0.1" } Script.create).run crowded
    ∃ c name, k.manager.connections.get? ⟨1⟩ = some c ∧ c.session = some name ∧
      ∃ requested n, Username.IsValid requested ∧ 2 ≤ n ∧ name = SessionName.numbered requested n := by
  intro k
  obtain ⟨c, hget, hname⟩ := Manager.session?_eq_some_iff.mp session?_crowded
  obtain ⟨-, -, hvalid, hmade, -⟩ := run_nameRules _ _ crowded ⟨1⟩ c _ hget hname
  obtain ⟨requested, n, hrequested, hn, -, heq⟩ := hmade.resolve_left fun h => absurd (hvalid.mp h) (by decide)
  exact ⟨c, _, hget, hname, requested, n, hrequested, hn, heq⟩

end Chronicle
end StateSync
