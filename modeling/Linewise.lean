import Linewise.Error
import Linewise.Range
import Linewise.Side
import Linewise.Text.WhiteSpace
import Linewise.Text.Line
import Linewise.Text.Lines
import Linewise.Text.Document
import Linewise.Text.Indexed
import Linewise.Text.Utf8
import Linewise.Text.Read
import Linewise.Text.Letter
import Linewise.Text.Name
import Linewise.Policy
import Linewise.Key
import Linewise.Fragment
import Linewise.Patch.Basic
import Linewise.Patch.Fuse
import Linewise.Patch.Slide
import Linewise.Patch.Tidy
import Linewise.Script.Basic
import Linewise.Script.Frontier
import Linewise.Script.Direct
import Linewise.Script.Snake
import Linewise.Script.Shortest
import Linewise.Script.Anchored
import Linewise.Script.CommonSubsequence
import Linewise.Comparison
import Linewise.ThreeWay.Region
import Linewise.ThreeWay.Classification
import Linewise.ThreeWay.Change
import Linewise.ThreeWay.Alignment
import Linewise.ThreeWay.Merge
import Linewise.Number.Numeral
import Linewise.Number.Binary64
import Linewise.Number.Shortest
import Linewise.Datum
import Linewise.Json.Basic
import Linewise.Json.Encode
import Linewise.Json.Number
import Linewise.Json.Decode
import Linewise.Json5.Text
import Linewise.Json5.Value
import Linewise.Ron.Name
import Linewise.Ron.Quoted
import Linewise.Ron.Number
import Linewise.Ron.Value
import Linewise.Ini
import Linewise.Yaml.Token
import Linewise.Yaml.Cursor
import Linewise.Yaml.Word
import Linewise.Yaml.Quoted
import Linewise.Yaml.Block
import Linewise.Yaml.Tag
import Linewise.Yaml.Layout
import Linewise.Yaml.Tokens
import Linewise.Yaml.Scalar
import Linewise.Yaml.Node
import Linewise.Yaml.Properties
import Linewise.Yaml.Document
import Linewise.Toml.Line
import Linewise.Toml.Quoted
import Linewise.Toml.Scalar
import Linewise.Toml.Table
import Linewise.Toml.Value
import Linewise.Toml.Document
import Linewise.Settings.Value
import Linewise.Settings.KeyPath
import Linewise.Settings.Entries
import Linewise.Settings.Environment
import Linewise.Settings.File
import Linewise.Settings.Basic
import Linewise.Command.Arguments
import Linewise.Command.Files
import Linewise.Command.Run
import Linewise.Main
import Linewise.Proofs.Key
import Linewise.Proofs.Patch.Run
import Linewise.Proofs.Patch.Aligned
import Linewise.Proofs.Patch.Replay
import Linewise.Proofs.Patch.Tight
import Linewise.Proofs.Patch.Coalesce
import Linewise.Proofs.Patch.Slide
import Linewise.Proofs.Patch.Place
import Linewise.Proofs.Patch.Tidy
import Linewise.Proofs.Patch.Cheapest
import Linewise.Proofs.Script.CommonLength
import Linewise.Proofs.Patch.Matching
import Linewise.Proofs.Patch.MatchedPairs
import Linewise.Proofs.Script.Frontier
import Linewise.Proofs.Script.Direct
import Linewise.Proofs.Script.DeletionsFirst
import Linewise.Proofs.Script.OneArray
import Linewise.Proofs.Script.Snake
import Linewise.Proofs.Script.Shortest
import Linewise.Proofs.Script.Anchored
import Linewise.Proofs.Comparison
import Linewise.Proofs.CommonLines
import Linewise.Proofs.Text.Lines
import Linewise.Proofs.Text.Equality
import Linewise.Proofs.ThreeWay.Alignment
import Linewise.Proofs.ThreeWay.Classification
import Linewise.Proofs.ThreeWay.Regions
import Linewise.Proofs.ThreeWay.Merge
import Linewise.Proofs.ThreeWay.Exact
import Linewise.Proofs.Minimality
import Linewise.Proofs.Separators
import Linewise.Proofs.Unchanged
import Linewise.Proofs.ThreeWay.Chains
import Linewise.Proofs.ThreeWay.Closure
import Linewise.Proofs.ThreeWay.Tiling
import Linewise.Proofs.ThreeWay.Symmetry
import Linewise.Proofs.ThreeWay.Unopposed
import Linewise.Proofs.ThreeWay.Strictness
import Linewise.Proofs.ThreeWay.Judgement
import Linewise.Proofs.Patch.Checked
import Linewise.Proofs.Patch.Settled
import Linewise.Proofs.Patch.Fused
import Linewise.Proofs.Patch.Preferred
import Linewise.Proofs.Patch.Origins
import Linewise.Proofs.Patch.Tidied
import Linewise.Proofs.Script.Gaps
import Linewise.Proofs.ThreeWay.Conflicts
import Linewise.Proofs.Script.Middle
import Linewise.Proofs.ThreeWay.Requests
import Linewise.Proofs.ThreeWay.Markers
import Linewise.Proofs.Text.Indexed
