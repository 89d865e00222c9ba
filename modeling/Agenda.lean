import Agenda.Main
import Agenda.Proofs.Command.Completion
import Agenda.Proofs.Command.ExitCode
import Agenda.Proofs.Command.LeapDay
import Agenda.Proofs.Command.Lines
import Agenda.Proofs.Command.Listing
import Agenda.Proofs.Command.Modification
import Agenda.Proofs.DueDate.Rephrasing
import Agenda.Proofs.Occurrence.Bounded
import Agenda.Proofs.Occurrence.Stepping
import Agenda.Proofs.Rule.Description
import Agenda.Proofs.Rule.Writing
import Agenda.Proofs.Store.History
