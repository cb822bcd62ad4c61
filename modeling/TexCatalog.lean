import TexCatalog.Json.Parser
import TexCatalog.Json.Sorted
import TexCatalog.Json.Printer
import TexCatalog.Tree.Decode
import TexCatalog.Tree.PlainText
import TexCatalog.Source.Clean
import TexCatalog.Text.Set
import TexCatalog.Text.Map
import TexCatalog.Text.Classes
import TexCatalog.Text.Lowercase
import TexCatalog.Bibliography.Label
import TexCatalog.Form.Pattern
import TexCatalog.Walk.Notes
import TexCatalog.Walk.Observe
import TexCatalog.Walk.Flatten
import TexCatalog.Walk.Page
import TexCatalog.Page.Encode
import TexCatalog.Bibliography.Reference
import TexCatalog.Bibliography.Bibtex.Entries
import TexCatalog.Bibliography.Csl
import TexCatalog.Html.Grid
import TexCatalog.Html.Template
import TexCatalog.Html.Math
import TexCatalog.Site.Merge
import TexCatalog.Site.Sitemap
import TexCatalog.Site.Report
import TexCatalog.Page.Document
import TexCatalog.Main
import TexCatalog.Proofs.Findings
import TexCatalog.Proofs.TreeNodes
import TexCatalog.Proofs.WalkRules
import TexCatalog.Proofs.SourceNodes
import TexCatalog.Proofs.SourceWalk
import TexCatalog.Proofs.RecordCoverage
import TexCatalog.Proofs.FormRelations
import TexCatalog.Proofs.WalkAppend
import TexCatalog.Proofs.QuietCards
import TexCatalog.Proofs.ShownLabels
import TexCatalog.Proofs.PatternMatches
import TexCatalog.Proofs.WalkLabels
import TexCatalog.Proofs.LayoutRules
import TexCatalog.Proofs.LayoutNodes
import TexCatalog.Proofs.LayoutAnchors
import TexCatalog.Proofs.ResolvedLabels
import TexCatalog.Proofs.Markup
import TexCatalog.Proofs.PageMarkup
import TexCatalog.Proofs.TrimmedText
import TexCatalog.Proofs.SourcePieces
import TexCatalog.Proofs.WalkLevels
import TexCatalog.Proofs.SurvivingMacros
import TexCatalog.Proofs.BalancedBodies
import TexCatalog.Proofs.Enclosures
import TexCatalog.Proofs.JsonText
import TexCatalog.Proofs.JsonShapes
import TexCatalog.Proofs.StoredPages
import TexCatalog.Proofs.TreeLinks
import TexCatalog.Proofs.CitationOrder
import TexCatalog.Proofs.References
import TexCatalog.Proofs.CommentLines
import TexCatalog.Proofs.CanonicalSpelling
import TexCatalog.Proofs.SpelledText
import TexCatalog.Proofs.BalancedGroups
import TexCatalog.Proofs.CommandTexts
import TexCatalog.Proofs.SpelledMacros
import TexCatalog.Proofs.SpelledLines
import TexCatalog.Proofs.SpelledLists
import TexCatalog.Proofs.SpelledBlocks
import TexCatalog.Proofs.BibtexOutcomes
import TexCatalog.Proofs.FieldBlanks
import TexCatalog.Proofs.BibtexSpelling
import TexCatalog.Proofs.RelaidValues
import TexCatalog.Proofs.PathPlaces
import TexCatalog.Proofs.GrowingStores
import TexCatalog.Proofs.StageRules
import TexCatalog.Proofs.Listings
import TexCatalog.Proofs.SteadyReaders
import TexCatalog.Proofs.WalkSchedules
import TexCatalog.Proofs.TwinRuns
import TexCatalog.Proofs.RepeatedBuilds
import TexCatalog.Proofs.StoreChanges
import TexCatalog.Proofs.BuildChanges
import TexCatalog.Proofs.SecondRuns
import TexCatalog.Proofs.PagesOfSources
import TexCatalog.Proofs.BuildInputs
import TexCatalog.Proofs.PageDependence
import TexCatalog.Proofs.BibtexEntries
import TexCatalog.Proofs.NodeOrigins
import TexCatalog.Proofs.LayoutProblems
import TexCatalog.Proofs.KeptTables
import TexCatalog.Proofs.DisplayLabels
import TexCatalog.Proofs.IdentifiedElements
import TexCatalog.Proofs.NoteNumbers
import TexCatalog.Proofs.NoteMarks
import TexCatalog.Proofs.NumberedNotes
import TexCatalog.Proofs.OutlineHeadings
import TexCatalog.Proofs.FormOrder
import TexCatalog.Proofs.UnexpandedText
import TexCatalog.Proofs.RelinkedTrees
import TexCatalog.Proofs.CitedKeys
import TexCatalog.Proofs.SpelledCitations
import TexCatalog.Proofs.PatternGrammar
import TexCatalog.Proofs.ParagraphBreaks
import TexCatalog.Proofs.TopLevelParts
import TexCatalog.Proofs.RecordTexts
import TexCatalog.Proofs.GridTexts
import TexCatalog.Proofs.CleanedSources
import TexCatalog.Proofs.AuthorLists
import TexCatalog.Proofs.PreprintLinks
import TexCatalog.Proofs.FilledTemplates
import TexCatalog.Proofs.KeyedDatabases
import TexCatalog.Proofs.ProtectingBraces
import TexCatalog.Proofs.EnvironmentTexts
import TexCatalog.Proofs.CalendarDays
import TexCatalog.Proofs.StableStamps
import TexCatalog.Proofs.PlainWords
import TexCatalog.Proofs.ShownText
import TexCatalog.Proofs.BalancedMarks
import TexCatalog.Proofs.PartedTexts
import TexCatalog.Proofs.NormalText
import TexCatalog.Proofs.EscapedText
import TexCatalog.Proofs.CleanedValues
