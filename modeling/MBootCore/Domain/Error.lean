/-!
# Domain — Error

`domain/Error.hpp`: the one enumeration every fallible operation reports
from, grouped as in the source. A `Result<T>` is `Except ErrorCode T`; the
optional context of an `ErrorInfo` is read by no modelled function and is
not carried.
-/

namespace MBootCore

inductive ErrorCode where
  | success | unknown | notSupported | invalidArgument
  | transportError | transportTimeout | transportDisconnected | transportWriteFailed
  | transportReadFailed
  | protocolError | protocolMismatch | invalidPacket | unexpectedPacket | invalidState
  | unsupportedVersion
  | saharaNakSuccess | saharaNakInvalidCmd | saharaNakProtocolMismatch
  | saharaNakInvalidTargetProto | saharaNakInvalidHostProto | saharaNakInvalidPktSize
  | saharaNakUnexpectedPkt | saharaNakInvalidTransferMode | saharaNakInvalidHostId
  | saharaNakTimeoutRx | saharaNakTimeoutTx | saharaNakInvalidMode | saharaNakInvalidHostReq
  | saharaNakReadDataError | saharaNakWriteDataError | saharaNakInvalidMemTable
  | saharaNakInvalidMemInfo | saharaNakMemDebugNotSup | saharaNakMemReadFailed
  | saharaNakInvalidImgId | saharaNakImgNotFound | saharaNakImgAuthFailed | saharaNakImgTooLarge
  | saharaNakAuthFailed | saharaNakInvalidImgHdr | saharaNakImgHdrInvalidVer
  | saharaNakInvalidSignature | saharaNakInvalidHash | saharaNakFatal | saharaNakCmdExecFailure
  | saharaNakImgEncFailed | saharaNakImgHdrAuthFailed | saharaNakImgHdrVerFailed
  | saharaNakImgHdrMacFailed | saharaNakImgHdrMacNotFound | saharaNakImgHdrSignFailed
  | saharaNakImgHdrSignNotFound | saharaNakInvalidImgContent | saharaNakInvalidProgrammer
  | saharaNakProgrammerAuthFail | saharaNakProgrammerMismatch
  | loaderNotFound | loaderRejected | loaderInvalidFormat | loaderVersionMismatch | invalidElf
  | cacheMiss
  | cancelled | alreadyExists
  | deviceNotFound
  | elfSegmentOverlap | elfTruncated | elfUnsupportedMachine
  | deviceDisconnected | deviceAccessDenied
  | firehoseNak | firehoseSectorOutOfRange | firehoseProgramFailed | firehoseEraseFailed
  | firehoseUnsupportedMemory | firehoseInvalidParam | firehoseSeqError | firehoseTimeout
  | firehoseCrcMismatch | firehosePartialWrite
  | gptCorrupted | gptInvalidHeader | gptInvalidEntry | gptPrimaryMissing | gptBackupMissing
  | gptCrcMismatch | partitionNotFound | partitionOverlap | invalidImage | imageTooLarge
  | deviceNotIdentified | negotiationFailed | noMatchingProtocol | enumerationFailed
  | probeFailed | detectorConflict | registryEmpty
  | sessionNotConnected | sessionAlreadyConnected | sessionBusy | sessionTimeout
  | sessionTerminal | sessionLimitExceeded
  | pluginLoadFailed | pluginInitFailed | pluginShutdownFailed | pluginNotFound
  | pluginIncompatible | pluginDependencyMissing | pluginCircularDependency | pluginDuplicate
  | pluginAlreadyLoaded | pluginNotLoaded | pluginRegistrationFailed
  | pluginUnregistrationFailed | pluginVersionMismatch | pluginConfigInvalid
  | jobFailed | jobCancelled | jobTimeout | jobInvalidState | jobDependencyFailed | jobNotFound
  | jobAlreadyRunning | jobQueueFull | jobRecoveryFailed | jobRollbackFailed | jobInvalidConfig
  | jobDeviceNotReady | jobDataMismatch | jobInsufficientSpace
  | firmwareInvalidFormat | firmwareImageNotFound | firmwareHashMismatch
  | firmwareInvalidManifest | firmwareDependencyConflict | firmwareUnsupportedDevice
  | firmwareUnsupportedVendor | firmwareUnsupportedStorage | firmwareDuplicatePartition
  | firmwareMissingProgrammer | firmwareValidationFailed | firmwareExtractionFailed
  | firmwarePackageCorrupted | firmwareVersionMismatch | firmwarePackageNotFound
  | firmwareNotEnoughImages
  | workflowInvalidState | workflowStepFailed | workflowRollbackFailed | workflowCancelled
  | workflowTimeout | workflowStepNotFound | workflowExecutionFailed | workflowRecoveryFailed
  | transportNotOpen | transportAlreadyOpen | transportBusy | transportInvalidEndpoint
  | transportBufferFull | transportPartialTransfer | transportReconnectFailed
  | transportHotplugRemoved | transportHotplugArrived | transportEnumerationFailed
  | transportBackendUnavailable | transportAsyncCancelled | transportRetryExhausted
  | transportBufferTooSmall
  | cryptoInitializationFailed | cryptoHashFailed | cryptoSignatureVerifyFailed
  | cryptoKeyLoadFailed | cryptoInvalidPadding | cryptoVerificationFailed
  deriving DecidableEq, Repr

end MBootCore
