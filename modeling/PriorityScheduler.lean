import PriorityScheduler.Config.Reader
import PriorityScheduler.Scheduler.Dispatch
import PriorityScheduler.Proofs.Averages
import PriorityScheduler.Proofs.Config.Reading
import PriorityScheduler.Proofs.Conservation
import PriorityScheduler.Proofs.Headroom
import PriorityScheduler.Proofs.Locks.Donors
import PriorityScheduler.Proofs.Locks.Indifference
import PriorityScheduler.Proofs.Locks.Ownership
import PriorityScheduler.Proofs.Locks.Reports
import PriorityScheduler.Proofs.LogLines
import PriorityScheduler.Proofs.Phases
import PriorityScheduler.Proofs.Queues.Aging
import PriorityScheduler.Proofs.Queues.Migration
import PriorityScheduler.Proofs.Scheduler.Balance
import PriorityScheduler.Proofs.Scheduler.Checks
import PriorityScheduler.Proofs.Scheduler.Errands
import PriorityScheduler.Proofs.Scheduler.Exclusion
import PriorityScheduler.Proofs.Scheduler.Finish
import PriorityScheduler.Proofs.Scheduler.Lockstep
import PriorityScheduler.Proofs.Scheduler.Masking
import PriorityScheduler.Proofs.Scheduler.Overtaking
import PriorityScheduler.Proofs.Scheduler.Postings
import PriorityScheduler.Proofs.Scheduler.Refusals
import PriorityScheduler.Proofs.Scheduler.Seating
import PriorityScheduler.Proofs.Scheduler.Spells
import PriorityScheduler.Proofs.Starvation
import PriorityScheduler.Proofs.Stretches
