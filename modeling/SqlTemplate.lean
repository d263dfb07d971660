import SqlTemplate.Main
import SqlTemplate.Proofs.Results
import SqlTemplate.Proofs.Serving
import SqlTemplate.Proofs.Substitution
import SqlTemplate.Proofs.ExactCounts
import SqlTemplate.Proofs.Template.Layout
import SqlTemplate.Proofs.Template.Places
import SqlTemplate.Proofs.Template.MarkersAndBlocks
import SqlTemplate.Proofs.Template.OrderedChoice
import SqlTemplate.Proofs.Rewriting
import SqlTemplate.Proofs.Format.NumberCharacters
import SqlTemplate.Proofs.Format.Fragments
import SqlTemplate.Proofs.Format.WrittenNumerals
import SqlTemplate.Proofs.QuoteScan
import SqlTemplate.Proofs.Format.QuotedText
import SqlTemplate.Proofs.Format.ItemLists
import SqlTemplate.Proofs.Format.ValueLists
import SqlTemplate.Proofs.Format.NamedLists
import SqlTemplate.Proofs.Format.NullTexts
import SqlTemplate.Proofs.QuoteSafety
import SqlTemplate.Proofs.Template.Writing
import SqlTemplate.Proofs.Concatenation
import SqlTemplate.Proofs.SegmentMarkers
import SqlTemplate.Proofs.Skipping
import SqlTemplate.Proofs.ElisionModes
import SqlTemplate.Proofs.TextualElision
import SqlTemplate.Proofs.Sessions
import SqlTemplate.Proofs.Format.NumberSigns
import SqlTemplate.Proofs.CommentSafety
import SqlTemplate.Proofs.CommandLine.ArgumentForms
import SqlTemplate.Proofs.CommandLine.VerboseFlag
import SqlTemplate.Proofs.CommandLine.CompileRuns
import SqlTemplate.Proofs.Binary64.PowersOfTwo
import SqlTemplate.Proofs.Binary64.Nearest
import SqlTemplate.Proofs.Binary64.Decimals
import SqlTemplate.Proofs.Binary64.RoundingIntervals
import SqlTemplate.Proofs.Binary64.ShortestDigits
import SqlTemplate.Proofs.Binary64.ExactIntegers
import SqlTemplate.Proofs.Format.LeadingNumbers
import SqlTemplate.Proofs.CommandLine.IntegerArguments
import SqlTemplate.Proofs.Format.IntegerTexts
import SqlTemplate.Proofs.Format.FloatTexts
import SqlTemplate.Proofs.Format.NumberGrammar
import SqlTemplate.Proofs.Format.SignificantDigits
import SqlTemplate.Proofs.Format.ShortestTexts
import SqlTemplate.Proofs.Format.FloatsReadBack
import SqlTemplate.Proofs.Format.CharacterBytes
import SqlTemplate.Proofs.Format.WholeNumbers
import SqlTemplate.Proofs.Format.NumberPlaces
import SqlTemplate.Proofs.Format.Rejections
import SqlTemplate.Proofs.ListPlaceholders
import SqlTemplate.Proofs.NamedValues
import SqlTemplate.Proofs.Json.Denotation
import SqlTemplate.Proofs.Json.Grammar
import SqlTemplate.Proofs.Json.Completeness
import SqlTemplate.Proofs.Json.WellFormed
import SqlTemplate.Proofs.Toml.DistinctKeys
import SqlTemplate.Proofs.SettingsTables
import SqlTemplate.Proofs.CommandLine.SettingsSources
