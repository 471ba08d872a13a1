import VirtualRsp.Card.EnabledProfile
import VirtualRsp.Card.Persistence
import VirtualRsp.Card.Identifiers
import VirtualRsp.Lpa.Installation
import VirtualRsp.Lpa.Management
import VirtualRsp.Protocol.Messages
import VirtualRsp.Lpa.Segmentation
import VirtualRsp.Smdp.BoundPackage
import VirtualRsp.Smdp.DownloadHistory
import VirtualRsp.Smdp.CancelSession
import VirtualRsp.Gui.AtomicWrite
import VirtualRsp.Gui.ProfileStore
import VirtualRsp.Card.Isolation
import VirtualRsp.Card.Sessions
import VirtualRsp.Smdp.SessionKeys
import VirtualRsp.Smdp.Notification
import VirtualRsp.Mno.LpaCommand
import VirtualRsp.Protocol.Codec
import VirtualRsp.Card.OneTimeKeys
import VirtualRsp.Card.Buffers
import VirtualRsp.Card.SecureChannel
import VirtualRsp.Card.CommandMemory
import VirtualRsp.Lpa.Listing
import VirtualRsp.Smdp.ProfileFiles
import VirtualRsp.Card.Echo
import VirtualRsp.Smdp.DownloadSignature
import VirtualRsp.Foundations.Base128
import VirtualRsp.Foundations.Tiling
import VirtualRsp.Lpa.PackagePieces
import VirtualRsp.Protocol.Signatures
import VirtualRsp.Smdp.CertificateChain
import VirtualRsp.Smdp.ObjectIdentifier
import VirtualRsp.Smdp.PackageContent
import VirtualRsp.Smdp.SegmentSize
import VirtualRsp.Lpa.DownloadChain
import VirtualRsp.Lpa.AuthenticateClient
import VirtualRsp.Lpa.Iteration
import VirtualRsp.Protocol.TreeWalk
import VirtualRsp.Lpa.GsmBcd
import VirtualRsp.Lpa.Base64Lengths
import VirtualRsp.Lpa.Conversions
import VirtualRsp.Lpa.RulesTable
import VirtualRsp.Smdp.ProfileElements
import VirtualRsp.Protocol.ActivationCode
import VirtualRsp.Lpa.Sha256
import VirtualRsp.Protocol.Agreement
import VirtualRsp.Lpa.NotificationApplets
import VirtualRsp.Lpa.ServerRequests
import VirtualRsp.Lpa.Metadata
import VirtualRsp.Lpa.DownloadApplet
import VirtualRsp.Lpa.DownloadLog
