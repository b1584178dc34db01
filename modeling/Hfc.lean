import Hfc.Library.ByteText
import Hfc.Library.Numeral
import Hfc.Library.CrlfScan
import Hfc.Library.Splitting
import Hfc.Library.EventRun
import Hfc.Library.Ledger
import Hfc.Core.Types
import Hfc.Core.Transport
import Hfc.Core.Io
import Hfc.Core.Header
import Hfc.Core.Exchange
import Hfc.Core.Session
import Hfc.Core.Platform
import Hfc.Core.Uri
import Hfc.Core.Client
import Hfc.Core.Http2
import Hfc.Core.Http2Setup
import Hfc.Core.Http2Run
import Hfc.Core.Access
import Hfc.Spec.ChunkedBody
import Hfc.Spec.HeaderBlock
import Hfc.Spec.FieldBlock
import Hfc.Proofs.LineReader
import Hfc.Proofs.LineDelivery
import Hfc.Proofs.ChunkCall
import Hfc.Proofs.ChunkProgress
import Hfc.Proofs.ChunkedDecoding
import Hfc.Proofs.ChunkRecovery
import Hfc.Proofs.ResponseHead
import Hfc.Proofs.ChunkedEnd
import Hfc.Proofs.RequestSending
import Hfc.Proofs.HeaderBuilding
import Hfc.Proofs.HeaderBoundary
import Hfc.Proofs.ExchangeRuns
import Hfc.Proofs.StreamCallbacks
import Hfc.Proofs.WouldBlock
import Hfc.Proofs.Dialling
import Hfc.Proofs.UriSplitting
import Hfc.Proofs.TlsSetup
import Hfc.Proofs.ResourceRelease
import Hfc.Proofs.Http2Release
import Hfc.Proofs.HostClassification
import Hfc.Proofs.HostRecognition
import Hfc.Proofs.EndpointDialled
import Hfc.Proofs.ScratchBlock
import Hfc.Proofs.ChunkSize
import Hfc.Proofs.FieldLookup
import Hfc.Proofs.BodyFraming
import Hfc.Proofs.HeadHeld
import Hfc.Proofs.HeadNumbers
import Hfc.Proofs.HeadAccess
import Hfc.Proofs.HeadArrival
import Hfc.Proofs.ConnectionReuse
import Hfc.Proofs.HeadParsing
import Hfc.Proofs.HeadFreshness
import Hfc.Proofs.StreamOrder
import Hfc.Proofs.KeepAlive
import Hfc.Core.GetExample
import Hfc.Proofs.GetRequests
import Hfc.Library.BitString
import Hfc.Library.PrefixCode
import Hfc.Core.Hpack.Bufs
import Hfc.Core.Hpack.Huffman
import Hfc.Spec.Hpack.HuffmanText
import Hfc.Proofs.Hpack.BufsWriting
import Hfc.Proofs.Hpack.HuffmanEncoding
import Hfc.Proofs.Hpack.HuffmanDecoding
import Hfc.Core.Hpack.Integer
import Hfc.Proofs.Hpack.IntegerCoding
import Hfc.Library.RingBuffer
import Hfc.Library.BoundedFront
import Hfc.Core.Hpack.StaticTable
import Hfc.Core.Hpack.Table
import Hfc.Spec.Hpack.DynamicTable
import Hfc.Proofs.Hpack.TableRefinement
import Hfc.Core.Hpack.Deflate
import Hfc.Proofs.Hpack.TableSearch
import Hfc.Core.Hpack.Inflate
import Hfc.Core.Hpack.Calls
import Hfc.Spec.Hpack.Representation
import Hfc.Proofs.Hpack.InflateReading
import Hfc.Proofs.Hpack.InflateFragments
import Hfc.Proofs.Hpack.InflateLoops
import Hfc.Proofs.Hpack.FragmentedBlocks
import Hfc.Proofs.Hpack.InflaterSafety
import Hfc.Proofs.Hpack.Deflating
import Hfc.Proofs.Hpack.Inflating
import Hfc.Proofs.Hpack.RoundTrip
import Hfc.Proofs.Hpack.DeflateBound
import Hfc.Core.FlowControl
import Hfc.Proofs.FlowControl
