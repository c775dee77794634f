import MailFetch.Main
import MailFetch.Proofs.Flights
import MailFetch.Proofs.Books
import MailFetch.Proofs.Errand
import MailFetch.Proofs.Desk
import MailFetch.Proofs.Readiness
import MailFetch.Proofs.OneInstance
import MailFetch.Proofs.Crew
import MailFetch.Proofs.Limits
import MailFetch.Proofs.Overlap
import MailFetch.Proofs.Aloft
import MailFetch.Proofs.Alarm
import MailFetch.Proofs.StallBound
import MailFetch.Proofs.LostLook
import MailFetch.Proofs.Roster
import MailFetch.Proofs.SendingBack
import MailFetch.Proofs.Whereabouts
import MailFetch.Proofs.OnePlace
import MailFetch.Proofs.RetryBudget
import MailFetch.Proofs.GivingUp
import MailFetch.Proofs.Attendance
import MailFetch.Proofs.Stranded
import MailFetch.Proofs.StaleReports
import MailFetch.Proofs.DelayedRetry
import MailFetch.Proofs.Purpose
import MailFetch.Proofs.Background
import MailFetch.Proofs.Barred
import MailFetch.Proofs.PolicyGate
import MailFetch.Proofs.TransferReports
import MailFetch.Proofs.LedgerEntries
import MailFetch.Proofs.Accounting
import MailFetch.Proofs.WorstCase
import MailFetch.Proofs.PendingMail
import MailFetch.Proofs.Stopped
import MailFetch.Proofs.SoleRound
import MailFetch.Proofs.Conservation
import MailFetch.Proofs.RoundOrder
import MailFetch.Proofs.TriesLeft
import MailFetch.Proofs.RoundEnds
import MailFetch.Proofs.Overtaking
import MailFetch.Proofs.OfflineTick
import MailFetch.Proofs.Outcome
import MailFetch.Proofs.DueMail
import MailFetch.Proofs.BackOfClass
import MailFetch.Proofs.Replacement
import MailFetch.Proofs.Sweep
import MailFetch.Proofs.LookingAhead
import MailFetch.Proofs.BudgetCheck
import MailFetch.Proofs.FlagsKept
import MailFetch.Proofs.Lineage
import MailFetch.Proofs.ProgressWrites
import MailFetch.Proofs.StoredProgress
import MailFetch.Proofs.SeparateFiles
import MailFetch.Proofs.LogLevel
import MailFetch.Proofs.Vanishing
