import WalletScan.Handoff
import WalletScan.Main
import WalletScan.Rehearsal.Account
import WalletScan.Rehearsal.Session
import WalletScan.Rehearsal.Timeline
import WalletScan.Proofs.Batches
import WalletScan.Proofs.CursorSafety
import WalletScan.Proofs.ChainHistory
import WalletScan.Proofs.RetryPass
import WalletScan.Proofs.StrandedRewinds
import WalletScan.Proofs.LinkedHistory
import WalletScan.Proofs.AdvanceTermination
import WalletScan.Proofs.RetryInterruptions
import WalletScan.Proofs.ConsecutiveCycles
import WalletScan.Proofs.AbandonedBlocks
import WalletScan.Proofs.LedgerRefinement
import WalletScan.Proofs.BatchOrder
import WalletScan.Proofs.DeadLoops
import WalletScan.Proofs.Classification
import WalletScan.Proofs.RecordIdentifiers
import WalletScan.Proofs.MovementIdentifiers
import WalletScan.Proofs.OnDemandExtraction
import WalletScan.Proofs.AddressHistories
import WalletScan.Proofs.TransferGroups
import WalletScan.Proofs.PermanentFailures
import WalletScan.Proofs.AmountTexts
import WalletScan.Proofs.ManualRescans
import WalletScan.Proofs.BlockCache
import WalletScan.Proofs.MemoryListings
import WalletScan.Proofs.OwnerTexts
import WalletScan.Proofs.LogLines
import WalletScan.Proofs.WrittenRecords
