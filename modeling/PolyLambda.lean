import PolyLambda.TyVar
import PolyLambda.Ty.Basic
import PolyLambda.Ty.Render
import PolyLambda.TypeError
import PolyLambda.Ty.Alpha
import PolyLambda.Ty.Scope
import PolyLambda.Ty.Subst
import PolyLambda.Ty.Free
import PolyLambda.Ty.View
import PolyLambda.Ty.Step
import PolyLambda.Expr.Basic
import PolyLambda.Expr.Render
import PolyLambda.Env
import PolyLambda.Derivation
import PolyLambda.Event
import PolyLambda.Run
import PolyLambda.Check
import PolyLambda.Supply
import PolyLambda.Sample.Basic
import PolyLambda.Sample.Catalogue
import PolyLambda.Session
import PolyLambda.Cli.Options
import PolyLambda.Cli.Report
import PolyLambda.Main
import PolyLambda.Proofs.Binders
import PolyLambda.Proofs.FreeVariables
import PolyLambda.Proofs.Occurrences
import PolyLambda.Proofs.Nameless
import PolyLambda.Proofs.Substitution
import PolyLambda.Proofs.SubstitutionLaws
import PolyLambda.Proofs.Comparison
import PolyLambda.Proofs.Inference
import PolyLambda.Proofs.OneWayComparison
import PolyLambda.Proofs.Visits
import PolyLambda.Proofs.Regularity
import PolyLambda.Proofs.Freshness
import PolyLambda.Proofs.NamelessTyping
import PolyLambda.Proofs.Agreement
import PolyLambda.Proofs.Relabelling
import PolyLambda.Proofs.Detail
import PolyLambda.Proofs.Weakening
import PolyLambda.Proofs.Positions
import PolyLambda.Proofs.Record
import PolyLambda.Proofs.EventLog
import PolyLambda.Proofs.Failures
import PolyLambda.Proofs.Relevance
import PolyLambda.Proofs.Rebinding
import PolyLambda.Proofs.EtaExpansion
import PolyLambda.Proofs.Reading
import PolyLambda.Proofs.TypeText
import PolyLambda.Proofs.TermText
import PolyLambda.Proofs.DerivationText
import PolyLambda.Proofs.Environments
import PolyLambda.Proofs.Drawing
import PolyLambda.Proofs.LeafComparison
import PolyLambda.Proofs.Samples
import PolyLambda.Proofs.Sessions
import PolyLambda.Proofs.CommandLine
