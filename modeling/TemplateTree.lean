import TemplateTree.Editing
import TemplateTree.Json.Import
import TemplateTree.Node.Outline
import TemplateTree.Node.Replacement
import TemplateTree.Proofs.Accounting
import TemplateTree.Proofs.Closing
import TemplateTree.Proofs.Concatenation
import TemplateTree.Proofs.Declaration
import TemplateTree.Proofs.Editing
import TemplateTree.Proofs.Json.Rearrangement
import TemplateTree.Proofs.Layout
import TemplateTree.Proofs.Margins
import TemplateTree.Proofs.Opening
import TemplateTree.Proofs.Outline
import TemplateTree.Proofs.PlainText
import TemplateTree.Proofs.Replacement
import TemplateTree.Proofs.Rereading
import TemplateTree.Proofs.RoundTrip
import TemplateTree.Proofs.Scan.Nodes
import TemplateTree.Proofs.Verbatim
