import TealDrive.Library.BigEndian
import TealDrive.Library.Splice
import TealDrive.Upload.Transfer

namespace TealDrive

open BigEndian Outcome Splice

/-!
# TDRV frames

A frame is a header of 32 bytes and a payload.  This is the server's side:
`protocol::header`, `protocol::frame` and `protocol::chunk`.  Numbers of a fixed
width are written and read with their most significant byte first.
-/

/-- `[u8; n]`. -/
abbrev FixedBytes (size : Nat) := { bytes : Bytes // bytes.length = size }

abbrev RequestId := FixedBytes 16

abbrev TransferId := FixedBytes 16

def headerLen : Nat := 32
def versionOffset : Nat := 4
def flagsOffset : Nat := 5
def messageTypeOffset : Nat := 7
def compressionOffset : Nat := 9
def encodingOffset : Nat := 10
def reservedOffset : Nat := 11
def requestIdOffset : Nat := 12
def payloadLengthOffset : Nat := 28

def tdrvMagic : FixedBytes 4 := ⟨[84, 68, 82, 86], rfl⟩

def tdrvVersion : UInt8 := 1

/-! ## Flags, compressions, encodings and message types -/

def flagError : Nat := 0x0001
def flagStream : Nat := 0x0002
def flagFinal : Nat := 0x0004
def flagAckRequired : Nat := 0x0008
def flagCompressed : Nat := 0x0010

def knownFlagsMask : Nat :=
  flagError ||| flagStream ||| flagFinal ||| flagAckRequired ||| flagCompressed

structure TdrvFlags where
  error : Bool
  stream : Bool
  finalFrame : Bool
  ackRequired : Bool
  compressed : Bool
deriving DecidableEq

def TdrvFlags.empty : TdrvFlags := ⟨false, false, false, false, false⟩

def TdrvFlags.bits (flags : TdrvFlags) : Nat :=
  (if flags.error then flagError else 0) ||| (if flags.stream then flagStream else 0) |||
    (if flags.finalFrame then flagFinal else 0) |||
    (if flags.ackRequired then flagAckRequired else 0) |||
    (if flags.compressed then flagCompressed else 0)

/-- `TdrvFlags::from_bits` on a number of 16 bits. -/
def TdrvFlags.fromBits (bits : Nat) : Except TealDriveError TdrvFlags :=
  if bits &&& (0xffff ^^^ knownFlagsMask) != 0 then .error .invalidFlags
  else .ok {
    error := bits &&& flagError != 0
    stream := bits &&& flagStream != 0
    finalFrame := bits &&& flagFinal != 0
    ackRequired := bits &&& flagAckRequired != 0
    compressed := bits &&& flagCompressed != 0 }

inductive Compression where
  | none
  | gzip
  | deflateFuture
  | zstdFuture
deriving DecidableEq

def Compression.isV1Supported : Compression -> Bool
  | .none | .gzip => true
  | .deflateFuture | .zstdFuture => false

def Compression.code : Compression -> UInt8
  | .none => 0
  | .gzip => 1
  | .deflateFuture => 2
  | .zstdFuture => 3

def Compression.tryFrom : UInt8 -> Except TealDriveError Compression
  | 0 => .ok .none
  | 1 => .ok .gzip
  | 2 => .ok .deflateFuture
  | 3 => .ok .zstdFuture
  | _ => .error .invalidCompression

inductive Encoding where
  | none
  | messagePack
  | rawBinary
deriving DecidableEq

def Encoding.code : Encoding -> UInt8
  | .none => 0
  | .messagePack => 1
  | .rawBinary => 2

def Encoding.tryFrom : UInt8 -> Except TealDriveError Encoding
  | 0 => .ok .none
  | 1 => .ok .messagePack
  | 2 => .ok .rawBinary
  | _ => .error .invalidEncoding

inductive MessageType where
  | serverHello
  | clientHello
  | protocolReady
  | connectionStatus
  | error
  | authLogin
  | authResult
  | listDirectory
  | directoryList
  | fileMetadata
  | readTextFile
  | textFileContent
  | saveTextFile
  | fileMetadataRequest
  | searchFiles
  | searchResults
  | listTrash
  | trashList
  | uploadBegin
  | uploadChunk
  | uploadEnd
  | uploadAbort
  | uploadResume
  | downloadBegin
  | downloadChunk
  | downloadEnd
  | createFolder
  | renameFile
  | moveFile
  | copyFile
  | moveToTrash
  | restoreFromTrash
  | deletePermanently
  | chmodFile
  | compressZip
  | compressTarGz
  | extractArchive
  | operationStarted
  | operationProgress
  | operationDone
  | operationFailed
  | permissionDenied
  | policyDenied
  | validationError
deriving DecidableEq

def MessageType.code : MessageType -> Nat
  | .serverHello => 0x0001
  | .clientHello => 0x0002
  | .protocolReady => 0x0003
  | .connectionStatus => 0x0004
  | .error => 0x0005
  | .authLogin => 0x0010
  | .authResult => 0x0011
  | .listDirectory => 0x0100
  | .directoryList => 0x0101
  | .fileMetadata => 0x0102
  | .readTextFile => 0x0103
  | .textFileContent => 0x0104
  | .saveTextFile => 0x0105
  | .fileMetadataRequest => 0x0106
  | .searchFiles => 0x0107
  | .searchResults => 0x0108
  | .listTrash => 0x0109
  | .trashList => 0x010A
  | .uploadBegin => 0x0200
  | .uploadChunk => 0x0201
  | .uploadEnd => 0x0202
  | .uploadAbort => 0x0203
  | .uploadResume => 0x0204
  | .downloadBegin => 0x0210
  | .downloadChunk => 0x0211
  | .downloadEnd => 0x0212
  | .createFolder => 0x0300
  | .renameFile => 0x0301
  | .moveFile => 0x0302
  | .copyFile => 0x0303
  | .moveToTrash => 0x0304
  | .restoreFromTrash => 0x0305
  | .deletePermanently => 0x0306
  | .chmodFile => 0x0307
  | .compressZip => 0x0310
  | .compressTarGz => 0x0311
  | .extractArchive => 0x0312
  | .operationStarted => 0x0400
  | .operationProgress => 0x0401
  | .operationDone => 0x0402
  | .operationFailed => 0x0403
  | .permissionDenied => 0x0404
  | .policyDenied => 0x0405
  | .validationError => 0x0406

def MessageType.tryFrom : Nat -> Except TealDriveError MessageType
  | 0x0001 => .ok .serverHello
  | 0x0002 => .ok .clientHello
  | 0x0003 => .ok .protocolReady
  | 0x0004 => .ok .connectionStatus
  | 0x0005 => .ok .error
  | 0x0010 => .ok .authLogin
  | 0x0011 => .ok .authResult
  | 0x0100 => .ok .listDirectory
  | 0x0101 => .ok .directoryList
  | 0x0102 => .ok .fileMetadata
  | 0x0103 => .ok .readTextFile
  | 0x0104 => .ok .textFileContent
  | 0x0105 => .ok .saveTextFile
  | 0x0106 => .ok .fileMetadataRequest
  | 0x0107 => .ok .searchFiles
  | 0x0108 => .ok .searchResults
  | 0x0109 => .ok .listTrash
  | 0x010A => .ok .trashList
  | 0x0200 => .ok .uploadBegin
  | 0x0201 => .ok .uploadChunk
  | 0x0202 => .ok .uploadEnd
  | 0x0203 => .ok .uploadAbort
  | 0x0204 => .ok .uploadResume
  | 0x0210 => .ok .downloadBegin
  | 0x0211 => .ok .downloadChunk
  | 0x0212 => .ok .downloadEnd
  | 0x0300 => .ok .createFolder
  | 0x0301 => .ok .renameFile
  | 0x0302 => .ok .moveFile
  | 0x0303 => .ok .copyFile
  | 0x0304 => .ok .moveToTrash
  | 0x0305 => .ok .restoreFromTrash
  | 0x0306 => .ok .deletePermanently
  | 0x0307 => .ok .chmodFile
  | 0x0310 => .ok .compressZip
  | 0x0311 => .ok .compressTarGz
  | 0x0312 => .ok .extractArchive
  | 0x0400 => .ok .operationStarted
  | 0x0401 => .ok .operationProgress
  | 0x0402 => .ok .operationDone
  | 0x0403 => .ok .operationFailed
  | 0x0404 => .ok .permissionDenied
  | 0x0405 => .ok .policyDenied
  | 0x0406 => .ok .validationError
  | _ => .error .unknownMessageType

/-- `validate_encoding_for_message`. -/
def validateEncodingForMessage (messageType : MessageType) (encoding : Encoding) :
    Except TealDriveError Unit :=
  match messageType with
  | .uploadChunk | .downloadChunk => refuse (encoding != .rawBinary) .invalidEncoding
  | _ => refuse (encoding == .rawBinary) .invalidEncoding

/-! ## Headers and frames -/

structure TdrvHeader where
  magic : FixedBytes 4
  version : UInt8
  flags : TdrvFlags
  messageType : MessageType
  compression : Compression
  encoding : Encoding
  reserved : UInt8
  requestId : RequestId
  payloadLen : UInt32
deriving DecidableEq

def TdrvHeader.new (messageType : MessageType) (requestId : RequestId) (payloadLen : UInt32) :
    TdrvHeader where
  magic := tdrvMagic
  version := tdrvVersion
  flags := .empty
  messageType := messageType
  compression := .none
  encoding := .messagePack
  reserved := 0
  requestId := requestId
  payloadLen := payloadLen

/-- `copy_from_slice`, or an assignment, at an offset. -/
def writeAt (out : Bytes) (offset : Nat) (field : Bytes) : Bytes := overwrite 0 out offset field

def TdrvHeader.encode (header : TdrvHeader) : Bytes :=
  let out := List.replicate headerLen 0
  let out := writeAt out 0 header.magic.val
  let out := writeAt out versionOffset [header.version]
  let out := writeAt out flagsOffset (toBytes 2 header.flags.bits)
  let out := writeAt out messageTypeOffset (toBytes 2 header.messageType.code)
  let out := writeAt out compressionOffset [header.compression.code]
  let out := writeAt out encodingOffset [header.encoding.code]
  let out := writeAt out reservedOffset [header.reserved]
  let out := writeAt out requestIdOffset header.requestId.val
  writeAt out payloadLengthOffset (toBytes 4 header.payloadLen.toNat)

/-- `bytes[offset..offset + len]`. -/
def slice (bytes : Bytes) (offset len : Nat) : Bytes := (bytes.drop offset).take len

/-- A slice as an array.  The bytes missing from a shorter one are the panic of
`try_into`, which the callers have ruled out. -/
def fixedSlice (bytes : Bytes) (offset size : Nat) : FixedBytes size :=
  ⟨(slice bytes offset size ++ List.replicate size 0).take size, by simp⟩

def byteAt (bytes : Bytes) (offset : Nat) : UInt8 := (bytes.drop offset).headD 0

def TdrvHeader.decode (bytes : Bytes) : Except TealDriveError TdrvHeader := do
  refuse (bytes.length != headerLen) .invalidHeaderLength
  let magic := fixedSlice bytes 0 4
  refuse (magic != tdrvMagic) .invalidMagic
  let version := byteAt bytes 4
  refuse (version != tdrvVersion) .unsupportedVersion
  let flags ← TdrvFlags.fromBits (ofBytes (slice bytes 5 2))
  let messageType ← MessageType.tryFrom (ofBytes (slice bytes 7 2))
  let compression ← Compression.tryFrom (byteAt bytes 9)
  refuse (!compression.isV1Supported) .invalidCompression
  let encoding ← Encoding.tryFrom (byteAt bytes 10)
  let reserved := byteAt bytes 11
  refuse (reserved != 0) .reservedFieldNonZero
  refuse (flags.compressed != (compression != .none)) .invalidFlags
  validateEncodingForMessage messageType encoding
  let requestId := fixedSlice bytes 12 16
  let payloadLen := UInt32.ofNat (ofBytes (slice bytes 28 4))
  refuse (maxFramePayload < payloadLen.toNat) .payloadTooLarge
  return {
    magic := magic
    version := version
    flags := flags
    messageType := messageType
    compression := compression
    encoding := encoding
    reserved := reserved
    requestId := requestId
    payloadLen := payloadLen }

structure TdrvFrame where
  header : TdrvHeader
  payload : Bytes
deriving DecidableEq

def TdrvFrame.encode (frame : TdrvFrame) : Except TealDriveError Bytes := do
  refuse (maxFramePayload < frame.payload.length) .payloadTooLarge
  refuse (frame.header.payloadLen.toNat != frame.payload.length) .payloadLengthMismatch
  return frame.header.encode ++ frame.payload

def TdrvFrame.decode (bytes : Bytes) : Except TealDriveError TdrvFrame := do
  refuse (bytes.length < headerLen) .invalidHeaderLength
  let header ← TdrvHeader.decode (bytes.take headerLen)
  let payload := bytes.drop headerLen
  refuse (header.payloadLen.toNat != payload.length) .payloadLengthMismatch
  refuse (maxFramePayload < payload.length) .payloadTooLarge
  return ⟨header, payload⟩

/-! ## Chunks -/

namespace Wire

/-- A chunk with all its fields, as it crosses the wire. -/
structure RawChunk where
  transferId : TransferId
  chunkIndex : UInt32
  offset : UInt64
  chunkBytes : Bytes
deriving DecidableEq

def RawChunk.decode (bytes : Bytes) : Except TealDriveError RawChunk := do
  refuse (bytes.length < rawChunkHeaderLen) .invalidChunk
  let transferId := fixedSlice bytes 0 16
  let chunkIndex := UInt32.ofNat (ofBytes (slice bytes 16 4))
  let offset := UInt64.ofNat (ofBytes (slice bytes 20 8))
  let chunkLen := ofBytes (slice bytes 28 4)
  refuse (maxChunkSize < chunkLen) .invalidChunk
  refuse (bytes.length - rawChunkHeaderLen != chunkLen) .invalidChunk
  return ⟨transferId, chunkIndex, offset, bytes.drop rawChunkHeaderLen⟩

def RawChunk.encode (chunk : RawChunk) : Except TealDriveError Bytes := do
  refuse (maxChunkSize < chunk.chunkBytes.length) .invalidChunk
  return chunk.transferId.val ++ toBytes 4 chunk.chunkIndex.toNat ++
    toBytes 8 chunk.offset.toNat ++ toBytes 4 chunk.chunkBytes.length ++ chunk.chunkBytes

end Wire

end TealDrive
