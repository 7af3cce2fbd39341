import BuildingBus.Exchange.Export
import BuildingBus.Exchange.Import
import BuildingBus.Telegram
import BuildingBus.Proofs.Datapoint.Codecs
import BuildingBus.Proofs.Datapoint.RoundTrip
import BuildingBus.Proofs.Catalog.Walk
import BuildingBus.Proofs.Catalog.Checks
import BuildingBus.Proofs.Catalog.Index
import BuildingBus.Proofs.Catalog.Soundness
import BuildingBus.Proofs.Exchange.Reading
import BuildingBus.Proofs.Catalog.Branches
import BuildingBus.Proofs.Markup.Writing
import BuildingBus.Proofs.Markup.Attributes
import BuildingBus.Proofs.Catalog.Texts
import BuildingBus.Proofs.Catalog.Rebuilding
import BuildingBus.Proofs.Exchange.RoundTrip
import BuildingBus.Proofs.Catalog.Rules
import BuildingBus.Proofs.Catalog.Building
import BuildingBus.Proofs.Datapoint.Repacking
import BuildingBus.Proofs.Telegrams
import BuildingBus.Proofs.Number.Rounding
import BuildingBus.Proofs.Number.Precision
import BuildingBus.Proofs.Datapoint.Literals
import BuildingBus.Proofs.Address.Texts
import BuildingBus.Proofs.Datapoint.Identifiers
import BuildingBus.Proofs.Exchange.Interruption
import BuildingBus.Proofs.Datapoint.ShortFloat.Exponents
import BuildingBus.Proofs.Datapoint.ShortFloat.Nearest
import BuildingBus.Proofs.Datapoint.ShortFloat.Doubles
import BuildingBus.Proofs.Datapoint.ShortFloat.Settling
import BuildingBus.Proofs.Datapoint.ShortFloat.Limits
import BuildingBus.Proofs.Datapoint.Faults
import BuildingBus.Proofs.Failures
import BuildingBus.Proofs.Number.Integers
import BuildingBus.Proofs.Datapoint.Integers
import BuildingBus.Proofs.Datapoint.Assigning
import BuildingBus.Proofs.Markup.Spelling
import BuildingBus.Proofs.Exchange.Order
import BuildingBus.Proofs.Catalog.Hierarchy
import BuildingBus.Proofs.Catalog.RangeTable
import BuildingBus.Proofs.Exchange.Hierarchy
import BuildingBus.Proofs.Datapoint.ShortTexts
import BuildingBus.Proofs.Text.Case
import BuildingBus.Proofs.Catalog.Names
import BuildingBus.Proofs.Targets
import BuildingBus.Proofs.Number.Nearest
import BuildingBus.Proofs.Number.DoubleRounding
import BuildingBus.Proofs.Datapoint.Singles
import BuildingBus.Proofs.Configuration.Texts
import BuildingBus.Proofs.Exchange.Journal
import BuildingBus.Proofs.Datapoint.Registry
