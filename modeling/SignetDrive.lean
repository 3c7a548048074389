import SignetDrive.Proofs.MerkleConsistency
import SignetDrive.Proofs.LeaseRequests
import SignetDrive.Proofs.Broker
import SignetDrive.Proofs.AnchorBound
import SignetDrive.Proofs.AnchorHonest
import SignetDrive.Proofs.AnchorCommands
import SignetDrive.Proofs.RecipientRotation
import SignetDrive.Proofs.RecipientBound
import SignetDrive.Proofs.TransparencyVerify
import SignetDrive.Proofs.WebRecipient
import SignetDrive.Proofs.Download
import SignetDrive.Proofs.WebDownload
import SignetDrive.Proofs.HostChannels
import SignetDrive.Proofs.Enroll
import SignetDrive.Proofs.BrokerKeystore
import SignetDrive.Proofs.GarnetProcesses
import SignetDrive.Proofs.GarnetRenewal
import SignetDrive.Proofs.Jcs
import SignetDrive.Proofs.Channel
import SignetDrive.Proofs.FolderDrop
import SignetDrive.Proofs.DownloadPool
import SignetDrive.Proofs.HybridWrap
import SignetDrive.Proofs.LeafBinding
import SignetDrive.Proofs.GrantStatusPeer
import SignetDrive.Proofs.PageStores
import SignetDrive.Proofs.PasskeyRotation
import SignetDrive.Proofs.PrfSecrecy
import SignetDrive.Proofs.GarnetToken
import SignetDrive.Proofs.StoredLength
import SignetDrive.Proofs.UploadComplete
import SignetDrive.Proofs.UploadState
import SignetDrive.Proofs.Pagination
import SignetDrive.Proofs.TransferRetry
import SignetDrive.Proofs.Ecdsa
import SignetDrive.Proofs.DownloadNames
