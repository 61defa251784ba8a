import PplMe.Engine.SqiralCoverage
import PplMe.Engine.FindExactness
import PplMe.Engine.FindContextSafety
import PplMe.Engine.FindProgress
import PplMe.Engine.FindTermination
import PplMe.Net.Framing
import PplMe.Net.Service
import PplMe.Engine.SortedCells
import PplMe.Engine.SlurpedRecords
import PplMe.Engine.GridResolution
import PplMe.Engine.Birthdays
import PplMe.Pplmec.Ages
import PplMe.Proto.ConvertPerson
import PplMe.Pplmed.Response
import PplMe.Net.AcceptChain
import PplMe.Engine.PrototypeOrchestration
import PplMe.Engine.My1stGrid
import PplMe.Engine.RangeChecks
import PplMe.Engine.SlurpedGrid
import PplMe.Engine.GridAddressing
import PplMe.Engine.NeighbourWalks
import PplMe.Engine.PoolRuns
import PplMe.Net.SessionEnds
import PplMe.Proto.Parsing
import PplMe.Pplmec.PplmeRuns
import PplMe.Engine.FindNearest
import PplMe.Engine.PrototypeUnhurried
import PplMe.Net.Client
import PplMe.Engine.ProviderConstruction
import PplMe.Pplmed.Main
import PplMe.Pplmec.Main
import PplMe.Net.ServerLifeSafety
import PplMe.Pplmec.ServedClients
