import PrimedLambda.Combinator.Lambda
import PrimedLambda.Main
import PrimedLambda.Proofs.Answers
import PrimedLambda.Proofs.FuelAccount
import PrimedLambda.Proofs.StuckSpines
import PrimedLambda.Proofs.TextbookAgreement
import PrimedLambda.Text.Quoted
import PrimedLambda.Proofs.CombinatorReduction
import PrimedLambda.Proofs.CombinatorCalls
import PrimedLambda.Proofs.CombinatorTexts
import PrimedLambda.Proofs.Rebinding
import PrimedLambda.Proofs.Rendering
import PrimedLambda.Proofs.ChurchCosts
import PrimedLambda.Proofs.Arguments
import PrimedLambda.Proofs.CommandLines
import PrimedLambda.Proofs.Limits
