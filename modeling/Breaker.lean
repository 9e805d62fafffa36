import Breaker.Main
import Breaker.Proofs.Run
import Breaker.Scenario.OnPanel
import Breaker.Proofs.Account
import Breaker.Proofs.Ledger
import Breaker.Proofs.Delivery
import Breaker.Proofs.Probes
import Breaker.Proofs.Period
import Breaker.Proofs.Cut
import Breaker.Proofs.Trip
import Breaker.Proofs.Answer
import Breaker.Proofs.Couriers
import Breaker.Proofs.OpenPeriod
import Breaker.Proofs.Generation
import Breaker.Proofs.Twins
import Breaker.Proofs.Alongside
import Breaker.Proofs.Outcomes
import Breaker.Proofs.Renewal
import Breaker.Proofs.Methods
import Breaker.Proofs.ZeroWindow
import Breaker.Proofs.Quiet
import Breaker.Proofs.Meters
import Breaker.Proofs.Panel
import Breaker.Proofs.Solo
import Breaker.Proofs.Handout
import Breaker.Proofs.Faults
import Breaker.Proofs.Report
import Breaker.Proofs.Tables
import Breaker.Proofs.Schema
import Breaker.Proofs.Edits
import Breaker.Proofs.Spelling
import Breaker.Proofs.Lines
import Breaker.Proofs.Written
import Breaker.Proofs.Parsed
import Breaker.Proofs.Naming
import Breaker.Proofs.Simulation
import Breaker.Proofs.Host
import Breaker.Proofs.Crew
import Breaker.Proofs.Healthy
import Breaker.Proofs.Dead
import Breaker.Proofs.Deadline
import Breaker.Proofs.Queries
import Breaker.Proofs.Sensitivity
import Breaker.Proofs.Termination
