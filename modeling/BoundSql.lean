import BoundSql.Analysis
import BoundSql.Proofs.Analysis.LetterCase
import BoundSql.Proofs.Config.Variables
import BoundSql.Proofs.Dialect.Opaque
import BoundSql.Proofs.Dialect.Tokens
import BoundSql.Proofs.Dialect.Unquoting
import BoundSql.Proofs.Generator.Advice
import BoundSql.Proofs.Generator.Alignment
import BoundSql.Proofs.Generator.AuditTrail
import BoundSql.Proofs.Generator.Budget
import BoundSql.Proofs.Generator.Confinement
import BoundSql.Proofs.Generator.Dialects
import BoundSql.Proofs.Generator.HiddenCallers
import BoundSql.Proofs.Generator.HiddenValues
import BoundSql.Proofs.Generator.Leniency
import BoundSql.Proofs.Generator.Lossless
import BoundSql.Proofs.Generator.Operands
import BoundSql.Proofs.Generator.Screening
import BoundSql.Proofs.Injection.Surroundings
import BoundSql.Proofs.Injection.UnionSelect
import BoundSql.Proofs.Pattern.Cut
import BoundSql.Proofs.Pattern.Occurrence
import BoundSql.Proofs.Pattern.Segmented
import BoundSql.Proofs.Pattern.Spelled
import BoundSql.Proofs.RateLimit.Capacity
import BoundSql.Proofs.RateLimit.Eviction
import BoundSql.Proofs.RateLimit.Renaming
import BoundSql.Proofs.RateLimit.Room
import BoundSql.Proofs.RateLimit.SlidingWindow
import BoundSql.Proofs.RateLimit.Standing
import BoundSql.Proofs.Redaction.Complete
import BoundSql.Proofs.Redaction.Hidden
import BoundSql.Proofs.Rules.Names
import BoundSql.Proofs.Statement.Backslash
import BoundSql.Proofs.Statement.Benign
import BoundSql.Proofs.Statement.BenignSpelling
import BoundSql.Proofs.Statement.Calm
import BoundSql.Proofs.Statement.Cutting
import BoundSql.Proofs.Statement.LegibleParts
import BoundSql.Proofs.Statement.Nested
import BoundSql.Proofs.Statement.Pagination
import BoundSql.Proofs.Statement.Pieces
import BoundSql.Proofs.Statement.Related
import BoundSql.Proofs.Statement.SelectText
import BoundSql.Proofs.Statement.Soundness
import BoundSql.Proofs.Statement.Spacing
import BoundSql.Proofs.Statement.TableText
import BoundSql.Proofs.Statement.Words
import BoundSql.Proofs.Text.Ascii
import BoundSql.Proofs.Text.WholeWords
import BoundSql.Proofs.Validation.Email
import BoundSql.Proofs.Validation.Identifier
import BoundSql.Proofs.Value.Edited
import BoundSql.Proofs.Value.Texts
import BoundSql.Session
import BoundSql.Validation.Email
