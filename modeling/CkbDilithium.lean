import CkbDilithium.Lib.Text
import CkbDilithium.Lib.Number
import CkbDilithium.Lib.NumberText
import CkbDilithium.Lib.Json
import CkbDilithium.Lib.JsonText
import CkbDilithium.Lib.Result
import CkbDilithium.Lib.Action
import CkbDilithium.Lib.Related
import CkbDilithium.Lib.Pagination
import CkbDilithium.Lib.Bytes
import CkbDilithium.Lib.Framing
import CkbDilithium.Lib.LinearMemory
import CkbDilithium.Lib.Ledger
import CkbDilithium.Lib.Molecule
import CkbDilithium.Lib.Digits
import CkbDilithium.Lib.Decimal
import CkbDilithium.Lib.LinearRegister
import CkbDilithium.Lib.Distance
import CkbDilithium.Ckb.Schema
import CkbDilithium.Contract.Lock
import CkbDilithium.Contract.Verdict
import CkbDilithium.Sdk.Types
import CkbDilithium.Sdk.Util
import CkbDilithium.Sdk.HashType
import CkbDilithium.Sdk.Witness
import CkbDilithium.Sdk.Address
import CkbDilithium.Sdk.Serialize
import CkbDilithium.Sdk.Transfer
import CkbDilithium.Sdk.Preflight
import CkbDilithium.Sdk.Sign
import CkbDilithium.Sdk.Indexer
import CkbDilithium.Sdk.Amount
import CkbDilithium.Sdk.Runtime
import CkbDilithium.Sdk.Client
import CkbDilithium.Sdk.Wallet
import CkbDilithium.Sdk.Keys
import CkbDilithium.Sdk.Bridge
import CkbDilithium.Sdk.CliInput
import CkbDilithium.Sdk.Cli
import CkbDilithium.Address.Regroup
import CkbDilithium.Address.Checksum
import CkbDilithium.Address.Bech32m
import CkbDilithium.Address.BitGroups
import CkbDilithium.Address.Canonical
import CkbDilithium.Address.Typo
import CkbDilithium.Address.Distance
import CkbDilithium.Transaction.Values
import CkbDilithium.Transaction.ReadBack
import CkbDilithium.Transaction.Size
import CkbDilithium.Transfer.Placeholder
import CkbDilithium.Transfer.Plan
import CkbDilithium.Transfer.Returns
import CkbDilithium.Transfer.Errors
import CkbDilithium.Transfer.Conservation
import CkbDilithium.Transfer.Assets
import CkbDilithium.Transfer.Fee
import CkbDilithium.Transfer.SameLock
import CkbDilithium.Transfer.Signed
import CkbDilithium.Transfer.Preflight
import CkbDilithium.Transfer.Solvency
import CkbDilithium.Transfer.Completeness
import CkbDilithium.Transfer.Relisting
import CkbDilithium.System.WitnessFormat
import CkbDilithium.System.Acceptance
import CkbDilithium.System.SignedSize
import CkbDilithium.System.Discovery
import CkbDilithium.System.HexFields
import CkbDilithium.System.HashTypes
import CkbDilithium.System.Amounts
import CkbDilithium.System.Waiting
import CkbDilithium.System.Confirmation
import CkbDilithium.System.Balance
import CkbDilithium.System.Effects
import CkbDilithium.System.Funding
import CkbDilithium.System.KeyFile
import CkbDilithium.System.TransferCommand
import CkbDilithium.System.Report
import CkbDilithium.System.Ledger
import CkbDilithium.System.Secrecy
import CkbDilithium.System.CommandLine
import CkbDilithium.System.Bridge
