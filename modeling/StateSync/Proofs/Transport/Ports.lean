import Mathlib.Data.Nat.Basic
import Mathlib.Logic.Function.Iterate
import StateSync.Proofs.Transport.Ends

/-! The search for a free port. It goes through the ports in a circle, on from the last one that it has looked at, and
    has no bound of its own (`Finds`). It ends exactly if some port of the circle is free, and then it does not look at
    any port twice (`run_bindAny`). -/

namespace StateSync.Network
variable {n : Network} {port port' found found' : UInt16} {tries tries' fuel k : Nat} {x : Act}

/-- The search from `port` on comes to an end after a number of tries, at the first port that is free. -/
inductive Finds (n : Network) : UInt16 → Nat → UInt16 → Prop where
  | here {port : UInt16} (free : n.isBound (loopback port) = false) : Finds n port 1 port
  | further {port found : UInt16} {tries : Nat} (taken : n.isBound (loopback port) = true)
      (rest : Finds n (portAfter port) tries found) : Finds n port (tries + 1) found

/-! ### The circle of ports -/

theorem firstPort_le_portAfter (port : UInt16) : firstPort ≤ portAfter port := by
  unfold portAfter
  split
  · exact UInt16.le_refl _
  · rename_i hge
    exact UInt16.not_lt.mp hge

/-- The place of a port in the circle. -/
def portPlace (port : UInt16) : Nat := port.toNat - firstPort.toNat

theorem portPlace_lt (h : firstPort ≤ port) : portPlace port < portCount := by
  have hport := port.toNat_lt
  have hfirst := UInt16.le_iff_toNat_le.mp h
  have : firstPort.toNat = 50000 := rfl
  simp only [portPlace, portCount]
  omega

theorem eq_of_portPlace (h : firstPort ≤ port) (h' : firstPort ≤ port') (heq : portPlace port = portPlace port') :
    port = port' := by
  have hle := UInt16.le_iff_toNat_le.mp h
  have hle' := UInt16.le_iff_toNat_le.mp h'
  simp only [portPlace] at heq
  exact UInt16.toNat_inj.mp (by omega)

theorem portPlace_portAfter (h : firstPort ≤ port) : portPlace (portAfter port) = (portPlace port + 1) % portCount := by
  have hport := port.toNat_lt
  have hfirst : firstPort.toNat = 50000 := rfl
  have hle := UInt16.le_iff_toNat_le.mp h
  have hnext : (port + 1).toNat = (port.toNat + 1) % 65536 := UInt16.toNat_add port 1
  simp only [portAfter, portPlace, portCount, UInt16.lt_iff_toNat_lt, hnext, hfirst]
  split
  · omega
  · omega

theorem iterate_portAfter (h : firstPort ≤ port) (k : Nat) : firstPort ≤ portAfter^[k] port ∧
    portPlace (portAfter^[k] port) = (portPlace port + k) % portCount := by
  induction k with
  | zero =>
    rw [Function.iterate_zero_apply, Nat.add_zero, Nat.mod_eq_of_lt (portPlace_lt h)]
    exact ⟨h, rfl⟩
  | succ k ih =>
    obtain ⟨hle, hplace⟩ := ih
    rw [Function.iterate_succ_apply']
    refine ⟨firstPort_le_portAfter _, ?_⟩
    rw [portPlace_portAfter hle, hplace, Nat.mod_add_mod, Nat.add_assoc]

/-- Once around the circle the search comes to every port. -/
theorem exists_iterate_portAfter (h : firstPort ≤ port) (h' : firstPort ≤ port') :
    ∃ k < portCount, portAfter^[k] port = port' := by
  have hlt := portPlace_lt h
  have hlt' := portPlace_lt h'
  refine ⟨(portPlace port' + (portCount - portPlace port)) % portCount, Nat.mod_lt _ (by decide), ?_⟩
  obtain ⟨hle, hplace⟩ := iterate_portAfter h ((portPlace port' + (portCount - portPlace port)) % portCount)
  refine eq_of_portPlace hle h' ?_
  rw [hplace, Nat.add_mod_mod]
  have hround : portPlace port + (portPlace port' + (portCount - portPlace port)) = portPlace port' + portCount := by
    omega
  rw [hround, Nat.add_mod_right, Nat.mod_eq_of_lt hlt']

/-! ### The search -/

namespace Finds

theorem free (h : n.Finds port tries found) : n.isBound (loopback found) = false := by
  induction h with
  | here free => exact free
  | further _ _ ih => exact ih

theorem inCircle (h : n.Finds port tries found) (hport : firstPort ≤ port) : firstPort ≤ found := by
  induction h with
  | here _ => exact hport
  | @further port _ _ _ _ ih => exact ih (firstPort_le_portAfter port)

theorem unique (h : n.Finds port tries found) (h' : n.Finds port tries' found') : tries = tries' ∧ found = found' := by
  induction h generalizing tries' with
  | here free =>
    cases h' with
    | here _ => exact ⟨rfl, rfl⟩
    | further taken _ => cases free.symm.trans taken
  | further taken _ ih =>
    cases h' with
    | here free => cases free.symm.trans taken
    | further _ rest =>
      obtain ⟨rfl, rfl⟩ := ih rest
      exact ⟨rfl, rfl⟩

/-- It ends no later than at the `k`th port from here, if that is free. -/
theorem of_free (h : n.isBound (loopback (portAfter^[k] port)) = false) :
    ∃ tries found, tries ≤ k + 1 ∧ n.Finds port tries found := by
  induction k generalizing port with
  | zero => exact ⟨1, port, Nat.le_refl 1, .here h⟩
  | succ k ih =>
    cases hbound : n.isBound (loopback port) with
    | false => exact ⟨1, port, by omega, .here hbound⟩
    | true =>
      rw [Function.iterate_succ_apply] at h
      obtain ⟨tries, found, hle, hfinds⟩ := ih h
      exact ⟨tries + 1, found, by omega, .further hbound hfinds⟩

/-- It does not go around the circle more than once. -/
theorem tries_le (h : n.Finds port tries found) (hport : firstPort ≤ port) : tries ≤ portCount := by
  obtain ⟨k, hk, heq⟩ := exists_iterate_portAfter hport (h.inCircle hport)
  obtain ⟨tries', found', hle, h'⟩ := of_free (n := n) (heq ▸ h.free)
  obtain ⟨rfl, -⟩ := h.unique h'
  omega

theorem exists_iff (hport : firstPort ≤ port) : (∃ tries found, n.Finds port tries found) ↔
    ∃ free, firstPort ≤ free ∧ n.isBound (loopback free) = false := by
  constructor
  · rintro ⟨tries, found, h⟩
    exact ⟨found, h.inCircle hport, h.free⟩
  · rintro ⟨free, hfree, hbound⟩
    obtain ⟨k, -, heq⟩ := exists_iterate_portAfter hport hfree
    obtain ⟨tries, found, -, h⟩ := of_free (n := n) (heq ▸ hbound)
    exact ⟨tries, found, h⟩

end Finds

/-- With a number of tries the search is the one without a bound, as far as that needs no more. -/
theorem freePort?_eq_some_iff : n.freePort? port fuel = some found ↔ ∃ tries ≤ fuel, n.Finds port tries found := by
  induction fuel generalizing port with
  | zero =>
    refine ⟨nofun, ?_⟩
    rintro ⟨tries, hle, h⟩
    cases h <;> cases hle
  | succ fuel ih =>
    cases hbound : n.isBound (loopback port) with
    | false =>
      rw [freePort?, hbound, if_neg Bool.false_ne_true]
      constructor
      · rintro ⟨⟩
        exact ⟨1, Nat.succ_le_succ (Nat.zero_le _), .here hbound⟩
      · rintro ⟨tries, -, h⟩
        exact congrArg some ((Finds.here hbound).unique h).2
    | true =>
      rw [freePort?, hbound, if_pos rfl, ih]
      constructor
      · rintro ⟨tries, hle, h⟩
        exact ⟨tries + 1, Nat.succ_le_succ hle, .further hbound h⟩
      · rintro ⟨tries, hle, h⟩
        cases h with
        | here free => cases free.symm.trans hbound
        | further _ rest => exact ⟨_, Nat.le_of_succ_le_succ hle, rest⟩

/-! ### The port to be tried next -/

theorem bindAny_eq (h : n.freePort? n.nextPort portCount = some found) : n.bindAny = some (loopback found,
    { n with nextPort := portAfter found, endpoints := n.endpoints.insert (loopback found) (.fresh n.clock) }) := by
  rw [bindAny, h]
  rfl

theorem bindAny_eq_none (h : n.freePort? n.nextPort portCount = none) : n.bindAny = none := by
  rw [bindAny, h]
  rfl

theorem nextPort_act (n : Network) (hx : x ≠ .bindAny) : (n.act x).nextPort = n.nextPort := by
  by_cases hconnect : ∃ a b, x = .connect a b
  · obtain ⟨a, b, rfl⟩ := hconnect
    rw [act]
    split
    · rw [connect]
      split <;> rfl
    · rfl
  · obtain ⟨clock, es, sends, overran, heq⟩ := act_eq_with n (fun a b heq => hconnect ⟨a, b, heq⟩) hx
    rw [heq]

theorem firstPort_le_act (h : firstPort ≤ n.nextPort) (x : Act) : firstPort ≤ (n.act x).nextPort := by
  by_cases hx : x = .bindAny
  · subst hx
    cases hfree : n.freePort? n.nextPort portCount with
    | none =>
      rw [act, bindAny_eq_none hfree]
      exact h
    | some found =>
      rw [act, bindAny_eq hfree]
      exact firstPort_le_portAfter found
  · rw [nextPort_act n hx]
    exact h

theorem firstPort_le_run (h : firstPort ≤ n.nextPort) (acts : List Act) : firstPort ≤ (n.run acts).nextPort := by
  induction acts generalizing n with
  | nil => exact h
  | cons x acts ih => exact ih (firstPort_le_act h x)

/-- Whatever endpoints have been bound and closed: the search for a port ends exactly if one of the ports from the first
    on is free on the loopback host, after no more tries than there are such ports. The endpoint then gets that port,
    which no other has, the next search goes on behind it, and no other endpoint is touched. Where the search would not
    end nothing is bound. -/
theorem run_bindAny (luck : Nat → Luck) (acts : List Act) :
    let n := (create luck).run acts
    ((∃ tries found, n.Finds n.nextPort tries found) ↔
      ∃ port, 50000 ≤ port ∧ n.isBound (loopback port) = false) ∧
    (∀ tries found, n.Finds n.nextPort tries found → tries ≤ 15536 ∧ n.isBound (loopback found) = false ∧
      ∃ n', n.bindAny = some (loopback found, n') ∧ n'.nextPort = portAfter found ∧
        ∀ a, n'.endpoint? a = if a = loopback found then some (.fresh n.clock) else n.endpoint? a) ∧
    ((¬ ∃ tries found, n.Finds n.nextPort tries found) → n.bindAny = none) := by
  intro n
  have hport : firstPort ≤ n.nextPort := firstPort_le_run (UInt16.le_refl _) acts
  refine ⟨Finds.exists_iff hport, fun tries found h => ?_, fun hnone => bindAny_eq_none ?_⟩
  · have hfree : n.freePort? n.nextPort portCount = some found :=
      freePort?_eq_some_iff.mpr ⟨tries, h.tries_le hport, h⟩
    refine ⟨h.tries_le hport, h.free, _, bindAny_eq hfree, rfl, fun a => ?_⟩
    rw [endpoint?, Assoc.get?_insert]
    simp only [eq_comm]
    rfl
  · refine Option.eq_none_iff_forall_ne_some.mpr fun found hfound => ?_
    obtain ⟨tries, -, h⟩ := freePort?_eq_some_iff.mp hfound
    exact hnone ⟨tries, found, h⟩

end StateSync.Network
