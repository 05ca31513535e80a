import QueryPanel.Clause.Json
import QueryPanel.Completion.Json
import QueryPanel.Draft.Json
import QueryPanel.Filter.Json
import QueryPanel.Main
import QueryPanel.Proofs.Clause.Splitting
import QueryPanel.Proofs.Completion.AcceptedValue
import QueryPanel.Proofs.Completion.Accepting
import QueryPanel.Proofs.Completion.Agreement
import QueryPanel.Proofs.Completion.Frame
import QueryPanel.Proofs.Completion.InPlace
import QueryPanel.Proofs.Completion.NextClause
import QueryPanel.Proofs.Completion.Ranges
import QueryPanel.Proofs.Completion.TypeAhead
import QueryPanel.Proofs.Completion.Typing
import QueryPanel.Proofs.Draft.Document
import QueryPanel.Proofs.Draft.Independence
import QueryPanel.Proofs.Draft.Ranges
import QueryPanel.Proofs.Filter.Injection
import QueryPanel.Proofs.Filter.Normal
import QueryPanel.Proofs.Filter.Reordering
import QueryPanel.Proofs.Filter.Session
import QueryPanel.Proofs.Query.Visibility
import QueryPanel.Proofs.Ranking.Breakdown
import QueryPanel.Proofs.Series.Cutting
import QueryPanel.Proofs.Series.Refilling
import QueryPanel.Proofs.Series.Rounding
import QueryPanel.Proofs.Series.Tiling
import QueryPanel.Proofs.Time.Layouts
import QueryPanel.Proofs.Time.Step
import QueryPanel.Query.Json
import QueryPanel.Series.Json
import QueryPanel.Store.Json
