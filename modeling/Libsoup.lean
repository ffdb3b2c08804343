import Libsoup.Bytes
import Libsoup.Misc.SubstringIndex
import Libsoup.Transfer.Buffer
import Libsoup.Transfer.Types
import Libsoup.Transfer.DecodeHex
import Libsoup.Transfer.DecodeChunk
import Libsoup.Transfer.Read
import Libsoup.Transfer.Write
import Libsoup.Reader.Steps
import Libsoup.Reader.CallOrder
import Libsoup.Reader.Run
import Libsoup.Reader.Headers
import Libsoup.Reader.ContentLength
import Libsoup.Reader.Unknown
import Libsoup.Writer.Steps
import Libsoup.Writer.CallOrder
import Libsoup.Writer.Wire
import Libsoup.Reader.Chunked
import Libsoup.Reader.ChunkedSplit
import Libsoup.Reader.ChunkedStall
import Libsoup.RoundTrip
import Libsoup.Writer.Errno
import Libsoup.Misc.StrCase
import Libsoup.Misc.Base64
import Libsoup.Misc.Config
import Libsoup.Reader.Ownership
import Libsoup.Misc.Settings
import Libsoup.Misc.Reload
