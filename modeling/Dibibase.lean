import Dibibase.Library.Bytes
import Dibibase.Library.OrderedMap
import Dibibase.Library.Execution
import Dibibase.Library.Relational
import Dibibase.Library.Posix
import Dibibase.Library.Words
import Dibibase.Library.Absorbing
import Dibibase.Library.Decoding
import Dibibase.Errors
import Dibibase.Util.Buffer
import Dibibase.Util.Parsing
import Dibibase.Util.Numbers
import Dibibase.Util.CursorSafety
import Dibibase.Catalog.Data
import Dibibase.Catalog.Schema
import Dibibase.Catalog.Table
import Dibibase.Catalog.TableCodec
import Dibibase.Catalog.RecordCodec
import Dibibase.Mem.Summary
import Dibibase.Db.IndexPage
import Dibibase.Db.PageBounds
import Dibibase.Io.DiskManager
import Dibibase.Io.TableBuilder
import Dibibase.Library.LayeredStore
import Dibibase.Io.BuilderExecution
import Dibibase.Db.TableManager
import Dibibase.Db.SSTable
import Dibibase.Db.LookupLimits
import Dibibase.Db.RoundTrip
import Dibibase.Db.BuilderOutput
import Dibibase.Db.PageLocation
import Dibibase.Db.TableRefinement
import Dibibase.Db.WriteHistory
import Dibibase.Db.Database
import Dibibase.Db.FailedFlush
import Dibibase.Db.TableErrors
import Dibibase.Db.KeyLength
import Dibibase.Db.Recovery
import Dibibase.Db.Metadata
import Dibibase.Db.CatalogImage
import Dibibase.Db.MetadataLoop
import Dibibase.Db.Descriptors
import Dibibase.Db.Frames
import Dibibase.Db.Independence
import Dibibase.Db.DatabaseRefinement
import Dibibase.Db.Shutdown
import Dibibase.Db.AbruptStop
import Dibibase.Db.Restarts
import Dibibase.Lang.Statements
import Dibibase.Lang.Lexer
import Dibibase.Lang.Visitor
import Dibibase.Lang.VisitorErrors
import Dibibase.Lang.IntegerLiterals
import Dibibase.Lang.InsertOrder
import Dibibase.Lang.KeyColumns
import Dibibase.Lang.InsertTranslation
import Dibibase.Lang.Meaning
import Dibibase.Lang.Script
import Dibibase.Dht.Routing
import Dibibase.Api.Framing
import Dibibase.Dht.ResultSerializer
import Dibibase.Dht.Executors
import Dibibase.Dht.Agreement
import Dibibase.Dht.ClusterMeaning
import Dibibase.Dht.ClusterRuns
import Dibibase.Dht.MurmurHash
import Dibibase.Dht.HashTail
import Dibibase.Dht.MurmurHash2
import Dibibase.Dht.InverseShift
import Dibibase.Api.QueryResult
import Dibibase.Api.CountField
import Dibibase.Api.RecordText
import Dibibase.Api.ResultBody
import Dibibase.Api.Metadata
import Dibibase.Api.ServerResponse
import Dibibase.Api.ErrorHandling
import Dibibase.Api.QueryText
import Dibibase.Api.RowsResult
import Dibibase.Api.MetadataBody
import Dibibase.Api.ResultSize
import Dibibase.Api.SelectBounds
import Dibibase.Api.ErrorConditions
import Dibibase.Api.ResponseFraming
import Dibibase.Api.ResultBytes
import Dibibase.Api.Replies
import Dibibase.Api.Delivery
import Dibibase.Api.Pipelining
import Dibibase.Api.SchemaChange
import Dibibase.Api.SelectRows
import Dibibase.Api.StoredRows
import Dibibase.PromEndp.HttpMessage
import Dibibase.PromEndp.RequestText
import Dibibase.PromEndp.Handlers
import Dibibase.PromEndp.HttpServer
import Dibibase.PromEndp.Isolation
