import DocTree.Main
import DocTree.Proofs.BoundPairs
import DocTree.Proofs.DecodedRecords
import DocTree.Proofs.Destination
import DocTree.Proofs.DocumentedNames
import DocTree.Proofs.FileOrder
import DocTree.Proofs.IndexReadBack
import DocTree.Proofs.JsonOutput
import DocTree.Proofs.OnePass
import DocTree.Proofs.Precedence
import DocTree.Proofs.SectionLookup
import DocTree.Proofs.CrossLinks
import DocTree.Proofs.MovedRecords
import DocTree.Proofs.InputFiles
import DocTree.Proofs.LinkLabels
import DocTree.Proofs.LinkTemplates
import DocTree.Proofs.OutputPaths
import DocTree.Proofs.IdentifierParts
import DocTree.Proofs.Slugs
