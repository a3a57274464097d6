import Custody.Bytes
import Custody.Ceremony.Basic
import Custody.Ceremony.Call
import Custody.Ceremony.Fleet
import Custody.Ceremony.Listener
import Custody.Client.ControlPlane
import Custody.Client.SocketBroker
import Custody.Client.Status
import Custody.Client.Target
import Custody.Client.Target.Page
import Custody.Client.Target.Reference
import Custody.CommandLine.Number
import Custody.CommandLine.Parameter
import Custody.Config
import Custody.Curve.Modular
import Custody.Curve.Secp256k1
import Custody.Ecdsa.Der
import Custody.Ecdsa.Pair
import Custody.Ecdsa.Recovery
import Custody.Envelope
import Custody.Error
import Custody.Hash.Keccak
import Custody.Hub.Basic
import Custody.Hub.ChannelName
import Custody.Json.Lexer
import Custody.Json.Number
import Custody.Json.Record
import Custody.Json.Token
import Custody.Json.Tree
import Custody.Json.Value
import Custody.Main
import Custody.Rehearsal.Cluster
import Custody.Rehearsal.Network
import Custody.Rehearsal.Play
import Custody.Rehearsal.World
import Custody.Result
import Custody.Service.Arguments
import Custody.Service.Http
import Custody.Service.MediaType
import Custody.Service.Publish
import Custody.Service.Server
import Custody.Service.Socket
import Custody.Session.Basic
import Custody.Session.Id
import Custody.Session.Parties
import Custody.Session.Purpose
import Custody.Session.Request
import Custody.Signature
import Custody.Subscription
import Custody.Text.Base64
import Custody.Text.Blank
import Custody.Text.Hex
import Custody.Text.Percent
import Custody.Text.Printable
import Custody.Text.Quoted
import Custody.Wait
import Custody.Wallet.Arguments
import Custody.Wallet.Basic
import Custody.Wallet.Digest
import Custody.Wallet.Files
import Custody.Wallet.Run
import Custody.Proofs.Ceremony.Order
import Custody.Proofs.Wait
import Custody.Proofs.Bytes
import Custody.Proofs.Ecdsa.Der
import Custody.Proofs.Signature.Canonical
import Custody.Proofs.Curve.Decompress
import Custody.Proofs.Curve.Generator
import Custody.Proofs.Ecdsa.Recovery
import Custody.Proofs.Json.Reading
import Custody.Proofs.Envelope
import Custody.Proofs.Signature.RoundTrip
import Custody.Proofs.Signature.Malleability
import Custody.Proofs.Ceremony.Outcome
import Custody.Proofs.Fleet.Isolation
import Custody.Proofs.Fleet.Schedule
import Custody.Proofs.Fleet.EarlyResult
import Custody.Proofs.Rehearsal.Deadline
import Custody.Proofs.Hub.Delivery
import Custody.Proofs.Hub.Pruning
import Custody.Proofs.Hub.Bookkeeping
import Custody.Proofs.Hub.Feed
import Custody.Proofs.Service.Pruning
import Custody.Proofs.Service.Refinement
import Custody.Proofs.Rehearsal.Triggers
import Custody.Proofs.Rehearsal.Errors
import Custody.Proofs.Wallet.Store
import Custody.Proofs.Config
import Custody.Proofs.Client.Exchange
import Custody.Proofs.Service.Attachment
import Custody.Proofs.Rehearsal.Scripted
import Custody.Proofs.Client.Endpoint
import Custody.Proofs.Wallet.Confidential
