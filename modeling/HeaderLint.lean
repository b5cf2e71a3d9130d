import HeaderLint.Main
import HeaderLint.Proofs.Checked.Extract
import HeaderLint.Proofs.CommandLine.Check
import HeaderLint.Proofs.Comparison.Eligible
import HeaderLint.Proofs.Comparison.HeaderSide
import HeaderLint.Proofs.Comparison.Locality
import HeaderLint.Proofs.Comparison.Location
import HeaderLint.Proofs.Comparison.Prototype
import HeaderLint.Proofs.Comparison.ReturnType
import HeaderLint.Proofs.Comparison.SameCode
import HeaderLint.Proofs.Comparison.Strict
import HeaderLint.Proofs.DocCheck.Pieces
import HeaderLint.Proofs.DocCheck.Verdicts
import HeaderLint.Proofs.DocComment.InReach
import HeaderLint.Proofs.DocComment.Inserted
import HeaderLint.Proofs.DocComment.Returns
import HeaderLint.Proofs.DocComment.Run
import HeaderLint.Proofs.DocComment.Style
import HeaderLint.Proofs.DocFormat.Tagged
import HeaderLint.Proofs.Pairing.OwnFile
import HeaderLint.Proofs.Pairing.Priority
import HeaderLint.Proofs.Pattern.Exclude
import HeaderLint.Proofs.Pattern.Ignore
import HeaderLint.Proofs.Report.Analysis
import HeaderLint.Proofs.Report.Selection
import HeaderLint.Proofs.Report.Settings
import HeaderLint.Proofs.Report.Tokens
import HeaderLint.Proofs.Signature.Directives
import HeaderLint.Proofs.Signature.Linkage
import HeaderLint.Proofs.Signature.ReadBack
import HeaderLint.Proofs.Signature.Splitting
import HeaderLint.Proofs.Signature.StatementWords
import HeaderLint.Proofs.Signature.Variables
import HeaderLint.Proofs.Token.Alone
import HeaderLint.Proofs.Token.Extent
import HeaderLint.Proofs.Token.Layout
