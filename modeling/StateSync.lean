import StateSync.Main
import StateSync.Text.Hex
import StateSync.Transport.Script
import StateSync.Proofs.Connection.Index
import StateSync.Proofs.Manager.Names
import StateSync.Proofs.Manager.Catalogue
import StateSync.Proofs.Manager.Logbook
import StateSync.Proofs.System.Agreement
import StateSync.Proofs.Demo.Loss
import StateSync.Proofs.Demo.Scene
import StateSync.Proofs.Demo.History
import StateSync.Proofs.Transport.Budget
import StateSync.Proofs.Transport.Lanes
import StateSync.Proofs.System.Service
import StateSync.Proofs.State.Convergence
import StateSync.Proofs.Archive.State
import StateSync.Proofs.State.Reach
import StateSync.Proofs.State.Skipping
import StateSync.Proofs.State.Priming
import StateSync.Proofs.State.Startup
import StateSync.Proofs.State.Arrival
import StateSync.Proofs.StringTable.Runs
import StateSync.Proofs.Manager.Channels
import StateSync.Proofs.System.Partaking
import StateSync.Proofs.Timestep
import StateSync.Proofs.Transport.Happenings
import StateSync.Proofs.Transport.Tidings
import StateSync.Proofs.System.Closing
import StateSync.Proofs.System.Rollback
import StateSync.Proofs.Settings
import StateSync.Proofs.Demo.Clock
import StateSync.Proofs.Transport.Ports
import StateSync.Proofs.State.Chain
