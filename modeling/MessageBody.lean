import MessageBody.Drawing.Placement
import MessageBody.Log.Level
import MessageBody.Main
import MessageBody.Render.Draft
import MessageBody.Render.Writing
import MessageBody.Storage.Reading
import MessageBody.Proofs.Brackets
import MessageBody.Proofs.Composition
import MessageBody.Proofs.WholeNumbers
import MessageBody.Proofs.Removal
import MessageBody.Proofs.KeptPositions
import MessageBody.Proofs.Rebasing
import MessageBody.Proofs.JsonStrings
import MessageBody.Proofs.JsonText
import MessageBody.Proofs.Payloads
import MessageBody.Proofs.Styling
import MessageBody.Proofs.GainedDirectives
import MessageBody.Proofs.BodyPayloads
import MessageBody.Proofs.Summaries
import MessageBody.Proofs.Disclosures
import MessageBody.Proofs.Display
import MessageBody.Proofs.Sessions
import MessageBody.Proofs.Identifiers
import MessageBody.Proofs.SummaryLinks
import MessageBody.Proofs.Ink
import MessageBody.Proofs.Wording
import MessageBody.Proofs.WellFormedTrees
import MessageBody.Proofs.TreeWording
import MessageBody.Proofs.Refusals
import MessageBody.Proofs.PayloadOutcomes
import MessageBody.Proofs.Placements
import MessageBody.Proofs.NestingDepth
import MessageBody.Proofs.SortedJson
import MessageBody.Proofs.StoredBodies
import MessageBody.Proofs.RestoredDisplay
import MessageBody.Proofs.Encoding
import MessageBody.Proofs.Unwrapping
import MessageBody.Proofs.SharedIds
import MessageBody.Proofs.RunningText
import MessageBody.Proofs.DroppedSpaces
import MessageBody.Proofs.ListItems
import MessageBody.Proofs.PreformattedText
import MessageBody.Proofs.KeptElements
import MessageBody.Proofs.CompressedMarkup
import MessageBody.Proofs.LinkAddresses
import MessageBody.Proofs.LinkPaths
import MessageBody.Proofs.AddressSearch
import MessageBody.Proofs.Mentions
import MessageBody.Proofs.RunningLinks
import MessageBody.Proofs.ForkedLinks
import MessageBody.Proofs.BlockDepths
import MessageBody.Proofs.ItemNumbers
import MessageBody.Proofs.Indentation
import MessageBody.Proofs.Seams
import MessageBody.Proofs.InlineImages
import MessageBody.Proofs.Labels
import MessageBody.Proofs.LabelledBreaks
import MessageBody.Proofs.Paragraphs
import MessageBody.Proofs.ItemBullets
import MessageBody.Proofs.PayloadRoundTrips
import MessageBody.Proofs.LinePlaces
import MessageBody.Proofs.LinePartitions
import MessageBody.Proofs.FloatOrder
import MessageBody.Proofs.CoveredCharacters
import MessageBody.Proofs.Subsequences
import MessageBody.Proofs.Building
import MessageBody.Proofs.WrittenDrafts
import MessageBody.Proofs.SpacedText
