import LineAtlas.Main
import LineAtlas.Binary64
import LineAtlas.Proofs.Matching.Consistency
import LineAtlas.Proofs.Lookup
import LineAtlas.Proofs.Matching.Binding
import LineAtlas.Proofs.Matching.Renaming
import LineAtlas.Proofs.Matching.Order
import LineAtlas.Proofs.Matching.Distinct
import LineAtlas.Proofs.Text.Scan
import LineAtlas.Proofs.LineProgram.Opcode
import LineAtlas.Proofs.LineProgram.Item
import LineAtlas.Proofs.LineProgram.Machine
import LineAtlas.Proofs.LineProgram.Restart
import LineAtlas.Proofs.Listing.Item
import LineAtlas.Proofs.Keyed
import LineAtlas.Proofs.Listing
import LineAtlas.Proofs.Faults
import LineAtlas.Proofs.Loading
import LineAtlas.Proofs.Declaration
import LineAtlas.Proofs.Matching.Exclusion
import LineAtlas.Proofs.Listing.Operand
import LineAtlas.Proofs.Matching.Checked
import LineAtlas.Proofs.Matching.Checked.Filters
import LineAtlas.Proofs.Matching.Checked.Tables
import LineAtlas.Proofs.Matching.Checked.Run
import LineAtlas.Proofs.Matching.Placement
import LineAtlas.Proofs.Matching.Alignment
import LineAtlas.Proofs.Matching.Evidence
import LineAtlas.Proofs.Annotation
import LineAtlas.Proofs.Annotation.Entries
import LineAtlas.Proofs.Lookup.Files
import LineAtlas.Proofs.Matching.Size
import LineAtlas.Proofs.LineProgram.Path
import LineAtlas.Proofs.Listing.Distinct
import LineAtlas.Proofs.InPlace.Dumps
import LineAtlas.Proofs.Lookup.Alias
import LineAtlas.Proofs.DebugInfo
import LineAtlas.Proofs.SymbolTable.Item
import LineAtlas.Proofs.SourceReader
import LineAtlas.Proofs.Matching.Completeness
import LineAtlas.Proofs.LineSequence.Recording
import LineAtlas.Proofs.Rendering
