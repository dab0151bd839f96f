import QueryGuard.Main
import QueryGuard.Proofs.Sql.Partition
import QueryGuard.Proofs.Sql.LiteralContent
import QueryGuard.Proofs.Guard.Acceptance
import QueryGuard.Proofs.Sql.Lexeme
import QueryGuard.Proofs.Sql.Reading
import QueryGuard.Proofs.Sql.Marks
import QueryGuard.Proofs.Guard.Origin
import QueryGuard.Proofs.Suggestion.NotPrepared
import QueryGuard.Proofs.Sql.Anchor
import QueryGuard.Proofs.Sql.Clause
import QueryGuard.Proofs.Suggestion.MissingWhere
import QueryGuard.Proofs.Sql.Loose
import QueryGuard.Proofs.Sql.Matching
import QueryGuard.Proofs.Sql.Cut
import QueryGuard.Proofs.Sql.Star
import QueryGuard.Proofs.Sql.OpenLiteral
import QueryGuard.Proofs.Suggestion.Gains
import QueryGuard.Proofs.Suggestion.RebuiltRow
import QueryGuard.Proofs.Suggestion.Snippet
import QueryGuard.Proofs.Suggestion.Styles
import QueryGuard.Proofs.Sql.Ranges
import QueryGuard.Proofs.Sql.FirstStatement
import QueryGuard.Proofs.Guard.Offsets
import QueryGuard.Proofs.Sql.Keyword
import QueryGuard.Proofs.Binding.Resolution
import QueryGuard.Proofs.Guard.Message
import QueryGuard.Proofs.Guard.Suppression
import QueryGuard.Proofs.Guard.SupplyOrder
import QueryGuard.Proofs.Guard.BoundValues
import QueryGuard.Proofs.Binding.BoundKeys
import QueryGuard.Proofs.Guard.KeyNames
import QueryGuard.Proofs.Guard.Notices
import QueryGuard.Proofs.CommandLine.Verdict
import QueryGuard.Proofs.Sql.Occurrence
import QueryGuard.Proofs.Sql.Gap
import QueryGuard.Proofs.Sql.Nesting
import QueryGuard.Proofs.Sql.Written
import QueryGuard.Proofs.Sql.InsertForm
import QueryGuard.Proofs.Sql.InsertHead
import QueryGuard.Proofs.Sql.Torn
import QueryGuard.Proofs.Sql.InsertRoundTrip
import QueryGuard.Proofs.Sql.HeadTokens
import QueryGuard.Proofs.Sql.ColumnList
import QueryGuard.Proofs.Sql.Items
import QueryGuard.Proofs.Sql.Rows
import QueryGuard.Proofs.Sql.HeadPrefix
import QueryGuard.Proofs.Sql.Replacement
import QueryGuard.Proofs.Sql.ValuesClause
import QueryGuard.Proofs.Suggestion.LiteralRepair
import QueryGuard.Proofs.Suggestion.RowRepair
import QueryGuard.Proofs.Binding.LiteralValue
import QueryGuard.Proofs.Sql.StringLiteral
import QueryGuard.Proofs.Suggestion.LiteralValues
import QueryGuard.Proofs.Sql.Positional
import QueryGuard.Proofs.Suggestion.StarRepair
import QueryGuard.Proofs.Injection.Pieces
import QueryGuard.Proofs.Injection.Statements
import QueryGuard.Proofs.Injection.Comparison
import QueryGuard.Proofs.Injection.Search
import QueryGuard.Proofs.Sql.Qualified
import QueryGuard.Proofs.Binding.Protocol
import QueryGuard.Proofs.Reconciliation.Names
import QueryGuard.Proofs.Reconciliation.Wording
import QueryGuard.Proofs.Reconciliation.Shortfall
import QueryGuard.Proofs.Sql.Targets
import QueryGuard.Proofs.Suggestion.Edits
import QueryGuard.Proofs.Sql.Parentheses
import QueryGuard.Proofs.Sql.Coverage
