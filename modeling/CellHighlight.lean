import CellHighlight.Buffer
import CellHighlight.Modes
import CellHighlight.Snapshot
import CellHighlight.Proofs.Buffer.Refinement
import CellHighlight.Proofs.Bytes.Frames
import CellHighlight.Proofs.Bytes.Scan
import CellHighlight.Proofs.Cells
import CellHighlight.Proofs.Agreement
import CellHighlight.Proofs.Snippets
import CellHighlight.Proofs.Reachable
import CellHighlight.Proofs.Delimiters
import CellHighlight.Proofs.Mending
import CellHighlight.Proofs.Snapshots
import CellHighlight.Proofs.Directives
import CellHighlight.Proofs.Stalls
import CellHighlight.Proofs.Literals.Nesting
import CellHighlight.Proofs.Literals.Variables
import CellHighlight.Proofs.Literals.Escapes
import CellHighlight.Proofs.Bytes.Texts
import CellHighlight.Proofs.Bytes.Walks
import CellHighlight.Proofs.Literals.Bodies
import CellHighlight.Proofs.Scopes.Blocks
import CellHighlight.Proofs.Buffer.Cutoff
import CellHighlight.Proofs.Bytes.Expressions
import CellHighlight.Proofs.Styles.Tokens
import CellHighlight.Proofs.LineRegions
import CellHighlight.Proofs.Literals.Openings
import CellHighlight.Proofs.Literals.Slashes
import CellHighlight.Proofs.Literals.WholeLines
import CellHighlight.Proofs.Numbers.Decimals
import CellHighlight.Proofs.Numbers.Suffixes
import CellHighlight.Proofs.Scopes.Conditions
import CellHighlight.Proofs.Registrations
