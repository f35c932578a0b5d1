import TlsProxy.Acme.ChainSplit
import TlsProxy.Acme.Deletion
import TlsProxy.Acme.Exemption
import TlsProxy.Acme.Gate
import TlsProxy.Acme.NormalNames
import TlsProxy.Acme.Refusal
import TlsProxy.Acme.RenewalProgress
import TlsProxy.Acme.RenewalWrites
import TlsProxy.Config.HostPrecedence
import TlsProxy.Control.CertificateEdits
import TlsProxy.Control.ConfigRequests
import TlsProxy.Control.ProviderEdits
import TlsProxy.Control.Sessions
import TlsProxy.Forward.Migrated
import TlsProxy.Forward.RoundRobin
import TlsProxy.Forward.RuntimeCap
import TlsProxy.Forward.ServerName
import TlsProxy.Forward.StableTargets
import TlsProxy.Http.ByteCounts
import TlsProxy.Http.ChunkedRuns
import TlsProxy.Http.Encodings
import TlsProxy.Http.HeadReading
import TlsProxy.Http.HostGrammar
import TlsProxy.Http.LoopTokens
import TlsProxy.Http.PathOrder
import TlsProxy.Http.PercentCodec
import TlsProxy.Http.PrefixStripping
import TlsProxy.Http.StaticRedirects
import TlsProxy.Listener.Accounted
import TlsProxy.Net.SelfConnect
import TlsProxy.Net.Teardown
import TlsProxy.Runtime.Applicable
import TlsProxy.Runtime.CdrParsing
import TlsProxy.Runtime.LiveConfig
import TlsProxy.Store.ConfigWrites
import TlsProxy.Store.Export
import TlsProxy.Store.Lossless
