import StateSync.Proofs.Binary32.Rounding
import StateSync.Proofs.Transport.Ends

/-! How late packets are. None is later than the greater of both latencies and the jitter together
    (`Impairment.lateness_le`). If that fits into 32 bits so does the sum of every delay, and nothing that the endpoint
    sends makes one run over (`Network.Smooth.send`). -/

namespace StateSync

namespace Impairment
variable {i : Impairment} {n : Nat}

/-! ### The part of a number that a roll stands for -/

theorem units_ten_thousand : (Binary32.ofNat 10000).units = 10000 * Binary32.one := by decide +kernel

/-- Less than all: the last roll stands for all but a ten-thousandth, and what is rounded up on the way is less. -/
theorem share_le (r : Roll) : (share r).IsSize ∧ 100000 * (share r).units ≤ 99991 * Binary32.one := by
  have hr : r.val ≤ 9999 := Nat.le_of_lt_succ r.isLt
  have hsize : (Binary32.ofNat r.val).IsSize := Binary32.isSize_ofNat (Nat.lt_of_le_of_lt hr (by decide))
  have hten : (Binary32.ofNat 10000).IsSize := Binary32.isSize_ofNat (by decide)
  have hpos : 0 < (Binary32.ofNat 10000).units := by
    rw [units_ten_thousand]
    decide
  rw [share, Binary32.div_eq hsize hten hpos, units_ten_thousand]
  have hunits := Binary32.units_ofNat_le (Nat.lt_of_le_of_lt hr (by decide))
  generalize (Binary32.ofNat r.val).units = u at hunits
  have hu : u ≤ 10000 * Binary32.one := by
    rw [Binary32.one_eq] at hunits ⊢
    omega
  have hsmall : u * Binary32.one / (10000 * Binary32.one) < 2 ^ 256 := by
    rw [Binary32.one_eq] at hu ⊢
    omega
  have hrounded := Binary32.units_ofUnits_le (by decide) hsmall
  refine ⟨Binary32.isSize_ofUnits (by decide) hsmall, ?_⟩
  rw [Binary32.one_eq] at hunits hrounded ⊢
  omega

/-- The part of a 32-bit number is no more than the number, for all the roundings on the way. -/
theorem portion_le (r : Roll) (h : n < UInt32.size) : portion r n ≤ n := by
  obtain ⟨hsize, hshare⟩ := share_le r
  have hlimit : n < 2 ^ 107 := Nat.lt_trans h (by decide)
  rw [portion, Binary32.mul_eq hsize (Binary32.isSize_ofNat hlimit)]
  have hunits := Binary32.units_ofNat_le hlimit
  generalize (Binary32.ofNat n).units = whole at hunits
  have hproduct : 100000 * ((share r).units * whole) ≤ 99991 * Binary32.one * whole := by
    rw [← Nat.mul_assoc]
    exact Nat.mul_le_mul_right _ hshare
  generalize (share r).units * whole = product at hproduct
  have hsize32 : UInt32.size = 4294967296 := rfl
  have hsmall : product / Binary32.one < 2 ^ 256 := by
    rw [Binary32.one_eq] at hunits hproduct ⊢
    omega
  have hrounded := Binary32.units_ofUnits_le (by decide) hsmall
  have hword := Binary32.toWord_le (Binary32.isSize_ofUnits (by decide) hsmall)
  rw [Binary32.one_eq] at hunits hproduct hrounded hword ⊢
  omega

/-! ### Delays -/

/-- The latest that a packet can be. -/
def latest (i : Impairment) : Nat := max i.minLatency i.maxLatency + i.jitter

theorem lateness_le (h : i.latest < UInt32.size) (luck : Luck) : i.lateness luck ≤ i.latest := by
  have hrange : portion luck.latency (i.maxLatency - i.minLatency) ≤ i.maxLatency - i.minLatency :=
    portion_le _ (by unfold latest at h; omega)
  have hjitter : portion luck.jitter i.jitter ≤ i.jitter := portion_le _ (by unfold latest at h; omega)
  unfold lateness latest
  split
  · exact Nat.zero_le _
  · omega

/-- With this impairment no sum of a delay runs over. -/
def Fits (i : Impairment) : Prop := ∀ luck, i.runsOver luck = false

theorem fits_of_latest_lt (h : i.latest < UInt32.size) : i.Fits := fun luck =>
  decide_eq_false (Nat.not_le.mpr (Nat.lt_of_le_of_lt (lateness_le h luck) h))

end Impairment

namespace Network
variable {n n' n'' : Network} {a : Address} {p : Peer}

def impairment? (n : Network) (a : Address) : Option Impairment := (n.endpoint? a).map (·.impairment)

/-- No packet of an endpoint has a delay whose sum runs over. -/
def Fits (n : Network) (a : Address) : Prop := ∀ i, n.impairment? a = some i → i.Fits

/-- In between no sum of a delay has run over, and no other trouble has been simulated at any endpoint. -/
structure Smooth (n n' : Network) : Prop where
  overran : n'.overran = n.overran
  impairment? : ∀ a, n'.impairment? a = n.impairment? a

namespace Smooth

theorem refl (n : Network) : Smooth n n := ⟨rfl, fun _ => rfl⟩

theorem trans (h : Smooth n n') (h' : Smooth n' n'') : Smooth n n'' :=
  ⟨h'.overran.trans h.overran, fun a => (h'.impairment? a).trans (h.impairment? a)⟩

theorem fits (h : Smooth n n') (hf : n.Fits a) : n'.Fits a := fun i hi => hf i ((h.impairment? a).symm.trans hi)

theorem update {f : Endpoint → Endpoint} (hf : ∀ e, (f e).impairment = e.impairment) (n : Network) (a : Address) :
    Smooth n (n.update a f) := ⟨rfl, map_endpoint?_update hf n a⟩

theorem elapse (n : Network) (time : Nat) : Smooth n (n.elapse time) := ⟨rfl, fun _ => rfl⟩

theorem post (n : Network) (a : Address) (release : Nat) (ev : TransportEvent) : Smooth n (n.post a release ev) :=
  update (f := fun e => { e with inbox := Parcel.enqueue ⟨release, ev⟩ e.inbox }) (fun _ => rfl) n a

theorem setLink (n : Network) (a : Address) (p : Peer) (l : Link) : Smooth n (n.setLink a p l) :=
  update (f := fun e => { e with links := e.links.insert p l }) (fun _ => rfl) n a

theorem dropLink (n : Network) (a : Address) (p : Peer) : Smooth n (n.dropLink a p) :=
  update (f := fun e => { e with links := e.links.erase p }) (fun _ => rfl) n a

theorem sever (n : Network) (a : Address) (p : Peer) (reason : String) : Smooth n (n.sever a p reason) := by
  unfold Network.sever
  split
  · exact .refl n
  · have hhere := (dropLink n a p).trans (post _ a n.clock (.disconnected p reason))
    dsimp only
    split
    · exact hhere.trans ((dropLink ..).trans (post ..))
    · exact hhere

theorem approve (n : Network) (a : Address) (p : Peer) : Smooth n (n.approve a p).2 := by
  unfold Network.approve
  split
  · exact .refl n
  · split
    · exact .refl n
    · dsimp only
      split
      · exact (setLink ..).trans ((setLink ..).trans ((post ..).trans (post ..)))
      · exact (setLink ..).trans ((post ..).trans (post ..))

theorem poll (n : Network) (a : Address) : Smooth n (n.poll a).2 := by
  unfold Network.poll
  split
  · split
    · have htaken : ∀ xs, Smooth n (n.update a fun e => { e with inbox := xs }) := fun xs =>
        update (f := fun e => { e with inbox := xs }) (fun _ => rfl) n a
      dsimp only
      split
      · exact (htaken _).trans (update (f := countReceived _) (fun _ => rfl) _ a)
      · exact htaken _
    · exact .refl n
  · exact .refl n

theorem transmit (n : Network) (a : Address) (p : Peer) (bytes : Bytes) (d : Delivery) (delay : Nat) :
    Smooth n (n.transmit a p bytes d delay).2 := by
  have hcount : ∀ n : Network, Smooth n (n.update a (countSent bytes.length)) := fun n =>
    update (f := countSent bytes.length) (fun _ => rfl) n a
  unfold Network.transmit
  split
  · exact .refl n
  · split
    · exact .refl n
    · dsimp only
      split
      · exact (setLink ..).trans ((post ..).trans (hcount _))
      · exact (post ..).trans (hcount _)

theorem noteDelay {i : Impairment} {luck : Luck} (h : i.runsOver luck = false) (n : Network) :
    Smooth n (n.noteDelay i luck) := by
  refine ⟨?_, fun _ => rfl⟩
  rw [Network.noteDelay, h, Bool.or_false]

/-- Nothing that is sent from an endpoint with an impairment that fits makes a sum run over. -/
theorem send (h : n.Fits a) (p : Peer) (bytes : Bytes) (d : Delivery) : Smooth n (n.send a p bytes d).2 := by
  unfold Network.send
  cases he : n.endpoint? a with
  | none => exact .refl n
  | some e =>
    have hfits : e.impairment.Fits := h _ (by rw [Network.impairment?, he, Option.map_some])
    have hcounted : Smooth n { n with sends := n.sends + 1 } := ⟨rfl, fun _ => rfl⟩
    have hwindow : Smooth n (({ n with sends := n.sends + 1 } : Network).update a (restartWindow n.clock)) :=
      hcounted.trans (update (fun e => by unfold restartWindow; split <;> rfl) _ a)
    have hdropped : ∀ n : Network, Smooth n (n.update a countDropped) := fun n =>
      update (f := countDropped) (fun _ => rfl) n a
    dsimp only
    split
    · exact hcounted.trans ((noteDelay (hfits _) _).trans (transmit ..))
    · split
      · exact hcounted.trans (hdropped _)
      · split
        · exact hwindow.trans (hdropped _)
        · exact hwindow.trans ((noteDelay (hfits _) _).trans (transmit ..))

end Smooth
end Network
end StateSync
