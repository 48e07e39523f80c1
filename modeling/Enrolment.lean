import Enrolment.Session.Script
import Enrolment.Version
import Enrolment.Proofs.Directory
import Enrolment.Proofs.Enroller.Collapse
import Enrolment.Proofs.Enroller.Outage
import Enrolment.Proofs.Enroller.ReverseMembership
import Enrolment.Proofs.Provider.AllowList
import Enrolment.Proofs.Provider.RuleBook
import Enrolment.Proofs.RoundTrip
import Enrolment.Proofs.Session.Answers
import Enrolment.Proofs.Session.Browsing
import Enrolment.Proofs.Session.Copies
import Enrolment.Proofs.Session.ReverseIndex
import Enrolment.Proofs.Session.Statistics
import Enrolment.Proofs.Session.Footprint
import Enrolment.Proofs.Session.ProviderFaults
import Enrolment.Proofs.Enroller.Diagnostics
import Enrolment.Proofs.Session.Diagnostics
import Enrolment.Proofs.Data
import Enrolment.Proofs.Toml.Names
import Enrolment.Proofs.Grammar
import Enrolment.Proofs.Session.Standing
