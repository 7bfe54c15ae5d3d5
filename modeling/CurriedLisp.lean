import CurriedLisp.Eval.Binding
import CurriedLisp.File.Tree
import CurriedLisp.Main
import CurriedLisp.Proofs.CommandLine.Files
import CurriedLisp.Proofs.Eval.Conditional
import CurriedLisp.Proofs.Eval.Currying
import CurriedLisp.Proofs.Eval.Division
import CurriedLisp.Proofs.Eval.Escape
import CurriedLisp.Proofs.Eval.ForwardReference
import CurriedLisp.Proofs.Eval.Purity
import CurriedLisp.Proofs.Eval.Reachable
import CurriedLisp.Proofs.File.Loading
import CurriedLisp.Proofs.Reader.Comments
import CurriedLisp.Proofs.Reader.Consumption
import CurriedLisp.Proofs.Reader.Spacing
import CurriedLisp.Proofs.Scope.Forest
import CurriedLisp.Proofs.Value.Chain
import CurriedLisp.Proofs.Value.Equality
import CurriedLisp.Scope.Inspect
