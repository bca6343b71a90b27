import YaslLexis.Drive.Session
import YaslLexis.Main
import YaslLexis.Proofs.Abreast
import YaslLexis.Proofs.Asking
import YaslLexis.Proofs.CarriageReturns
import YaslLexis.Proofs.Chunks
import YaslLexis.Proofs.Closings
import YaslLexis.Proofs.Encoding
import YaslLexis.Proofs.EndOfInput
import YaslLexis.Proofs.FailedReads
import YaslLexis.Proofs.FanOut
import YaslLexis.Proofs.FileContents
import YaslLexis.Proofs.Grammar
import YaslLexis.Proofs.LeadingZeros
import YaslLexis.Proofs.LineTable
import YaslLexis.Proofs.Listing
import YaslLexis.Proofs.Noninterference
import YaslLexis.Proofs.OneAhead
import YaslLexis.Proofs.Recovery
import YaslLexis.Proofs.Refusals
import YaslLexis.Proofs.Sharing
import YaslLexis.Proofs.Spelling
import YaslLexis.Proofs.Splitting
import YaslLexis.Proofs.StartingLine
import YaslLexis.Proofs.StepBounds
import YaslLexis.Proofs.UnderWay
import YaslLexis.Proofs.WholeText
import YaslLexis.Proofs.Writing
import YaslLexis.Proofs.Delimiting
import YaslLexis.Proofs.ListedForm
import YaslLexis.Proofs.Overrun
import YaslLexis.Proofs.ShownForm
