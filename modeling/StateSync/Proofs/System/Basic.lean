import Mathlib.Logic.Function.Basic
import StateSync.Proofs.Manager.Calls
import StateSync.Transport.Network

/-! One server and any number of clients on one network. Each party may be called upon at any time, so the events of
    one party and another interleave in every way. -/

namespace StateSync
variable {κ δ : Type}

inductive Party (κ : Type) where
  | server
  | client (k : κ)
  deriving DecidableEq

def Party.side : Party κ → Side
  | server => .server
  | client _ => .client

/-- The managers of all parties, on the network that they share. -/
structure System (κ δ : Type) where
  manager : Party κ → Manager Address δ
  net : Network

/-- A call that a party may make at any time: it connects only by a fresh transport, which is a move of its own, and
    the name table is not among the messages of an application. -/
def Manager.Call.IsOrdinary {μ ι : Type} : Manager.Call μ ι δ → Prop
  | .connect .. => False
  | .outside _ => False
  | .send _ t _ => t.name ≠ StringTable.bootstrapName
  | .broadcast t _ => t.name ≠ StringTable.bootstrapName
  | _ => True

inductive Move (κ δ : Type) : Type 1 where
  | call (x : Party κ) (c : Manager.Call Network Address δ) (ordinary : c.IsOrdinary)
  /-- A client binds a transport, at an address or anywhere, and connects by it. -/
  | connect (k : κ) (addr : Option Address) (remote : Address) (username : String)
  /-- A manager is given up without a word, and a new one takes its place. -/
  | replace (x : Party κ) (settings : Settings)
  | elapse (time : Nat)

/-- Binds an endpoint to an address, or to any. -/
def Network.bindAt (n : Network) : Option Address → Option (Address × Network)
  | none => n.bindAny
  | some addr =>
    match n.bind addr with
    | (.ok h, n) => some (h, n)
    | (.error _, _) => none

/-- No event waits at any endpoint, neither one that is due nor one that is late. -/
def Network.IsIdle (n : Network) : Prop := ∀ addr e, n.endpoint? addr = some e → e.inbox = []

theorem Network.isIdle_iff {n : Network} : n.IsIdle ↔ ∀ e ∈ n.endpoints.values, e.inbox = [] := by
  constructor
  · intro h e he
    obtain ⟨addr, hget⟩ := Assoc.mem_values.mp he
    exact h addr e hget
  · intro h addr e hget
    exact h e (Assoc.mem_values.mpr ⟨addr, hget⟩)

instance (n : Network) : Decidable n.IsIdle := decidable_of_iff _ Network.isIdle_iff.symm

namespace System
variable [DecidableEq κ]

def create (settings : Party κ → Settings) (luck : Nat → Luck) : System κ δ :=
  ⟨fun x => Manager.create x.side (settings x), Network.create luck⟩

def put (s : System κ δ) (x : Party κ) (r : Manager Address δ × Network) : System κ δ :=
  ⟨Function.update s.manager x r.1, r.2⟩

def perform (s : System κ δ) : Move κ δ → System κ δ
  | .call x c _ => s.put x (Manager.perform (s.manager x, s.net) c)
  | .connect k addr remote username =>
    match s.net.bindAt addr with
    | none => s
    | some (h, n) => s.put (.client k) (Manager.perform (s.manager (.client k), n) (.connect h remote username))
  | .replace x settings => s.put x (Manager.create x.side settings, (s.manager x).discard s.net)
  | .elapse time => { s with net := s.net.elapse time }

def run (s : System κ δ) (moves : List (Move κ δ)) : System κ δ := moves.foldl perform s

theorem manager_put_of_ne (s : System κ δ) {x y : Party κ} (h : y ≠ x) (r : Manager Address δ × Network) :
    (s.put x r).manager y = s.manager y := Function.update_of_ne h ..

section
variable (s : System κ δ) (x : Party κ) (k : κ) (r r' : Manager Address δ × Network) (n : Network)

@[simp] theorem net_put : (s.put x r).net = r.2 := rfl

@[simp] theorem manager_put_self : (s.put x r).manager x = r.1 := Function.update_self ..

@[simp] theorem server_put_client : (s.put (.client k) r).manager .server = s.manager .server := by
  apply manager_put_of_ne
  intro h
  cases h

@[simp] theorem client_put_server : (s.put .server r).manager (.client k) = s.manager (.client k) := by
  apply manager_put_of_ne
  intro h
  cases h

theorem put_same : s.put x (s.manager x, n) = { s with net := n } := by
  unfold put
  rw [Function.update_eq_self]

theorem put_put : (s.put x r).put x r' = s.put x r' := by
  unfold put
  rw [Function.update_idem]

end

/-- What holds of the new manager, and of those of the other parties, holds of all. -/
theorem forall_put {s : System κ δ} {x : Party κ} {r : Manager Address δ × Network}
    {P : Party κ → Manager Address δ → Prop} (hx : P x r.1) (hother : ∀ y, y ≠ x → P y (s.manager y)) (y : Party κ) :
    P y ((s.put x r).manager y) := by
  by_cases hy : y = x
  · subst hy
    rw [manager_put_self]
    exact hx
  · rw [manager_put_of_ne s hy]
    exact hother y hy

end System
end StateSync
