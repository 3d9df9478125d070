import SensoryProse.Text.Blank
import SensoryProse.Text.Split
import SensoryProse.Text.Case
import SensoryProse.Phrase.Basic
import SensoryProse.Draw
import SensoryProse.Phrase.Attach
import SensoryProse.Lexicon.Choice
import SensoryProse.Language.Collection
import SensoryProse.Language.English
import SensoryProse.Prose.Writer
import SensoryProse.Narrator.Observation
import SensoryProse.Decimal.Nearest
import SensoryProse.Decimal.Shortest
import SensoryProse.Ron.Place
import SensoryProse.Ron.Reading
import SensoryProse.Ron.Decode
import SensoryProse.Ron.Records
import SensoryProse.Lint.Report
import SensoryProse.Preview.Run
import SensoryProse.Main
import SensoryProse.Proofs.Narrator.Telling
import SensoryProse.Proofs.Phrase.Labels
import SensoryProse.Proofs.Narrator.Conservation
import SensoryProse.Proofs.Narrator.Articles
import SensoryProse.Proofs.Writer.Agreement
import SensoryProse.Proofs.Narrator.Glimpses
import SensoryProse.Proofs.Narrator.Undetected
import SensoryProse.Proofs.Narrator.Anonymity
import SensoryProse.Proofs.Language.Deciding
import SensoryProse.Proofs.Writer.Lexicons
import SensoryProse.Proofs.Language.Collecting
import SensoryProse.Proofs.Narrator.Contexts
import SensoryProse.Proofs.Narrator.Voices
import SensoryProse.Proofs.Narrator.Faults
import SensoryProse.Proofs.Phrase.Editing
import SensoryProse.Proofs.Lexicon.Entries
import SensoryProse.Proofs.Lexicon.Lessons
import SensoryProse.Proofs.Prose.Runs
import SensoryProse.Proofs.Writer.Traversal
import SensoryProse.Proofs.Language.Registering
import SensoryProse.Proofs.Lint.Conditions
import SensoryProse.Proofs.Lint.Soundness
import SensoryProse.Proofs.Writer.Senses
import SensoryProse.Proofs.Language.Contracting
import SensoryProse.Proofs.Preview.Sessions
import SensoryProse.Proofs.Language.Writing
import SensoryProse.Proofs.Lexicon.Choosing
import SensoryProse.Proofs.Lexicon.Learning
import SensoryProse.Proofs.Narrator.Pronouns
import SensoryProse.Proofs.Writer.Spacing
import SensoryProse.Proofs.Narrator.Strengths
import SensoryProse.Proofs.Narrator.Buried
import SensoryProse.Proofs.Writer.Inflecting
import SensoryProse.Proofs.Prose.Gluing
import SensoryProse.Proofs.Writer.Unlisting
import SensoryProse.Proofs.Language.Precedence
import SensoryProse.Proofs.Writer.Reattaching
import SensoryProse.Proofs.Writer.LetterCase
import SensoryProse.Proofs.Language.Applying
import SensoryProse.Proofs.Language.Affixes
import SensoryProse.Proofs.Lint.MissingVerb
import SensoryProse.Proofs.Lexicon.Fitness
import SensoryProse.Proofs.Prose.Grouping
import SensoryProse.Proofs.Perception.Details
import SensoryProse.Proofs.Perception.Detection
import SensoryProse.Proofs.Phrase.Preorder
import SensoryProse.Proofs.Writer.Kinds
