import SensorNode.StepSystem
import SensorNode.LineStream
import SensorNode.LineLoss
import SensorNode.DecimalText
import SensorNode.JsonText
import SensorNode.ScanText
import SensorNode.ReadingStore
import SensorNode.PayloadText
import SensorNode.PayloadDecode
import SensorNode.OfflineQueue
import SensorNode.TrimRewrite
import SensorNode.DrainRewrite
import SensorNode.QueueDelivery
import SensorNode.PayloadLedger
import SensorNode.CollectorThreads
import SensorNode.ReloadFlag
import SensorNode.ResourceLedger
import SensorNode.CaptureLoop
import SensorNode.CameraOwnership
import SensorNode.FrameHandoff
import SensorNode.ThreadShutdown
import SensorNode.SocketPath
import SensorNode.SensorClients
import SensorNode.ReadingOrigin
import SensorNode.SensorDrivers
import SensorNode.SignedWord
import SensorNode.PressureCompensation
import SensorNode.Dht11Sampling
import SensorNode.CallProgram
import SensorNode.CallHistory
import SensorNode.CameraLock
import SensorNode.CaptureBounds
import SensorNode.RequestConfig
import SensorNode.FrameHistory
import SensorNode.FrameStore
import SensorNode.FrameLedger
import SensorNode.OfflineBounds
import SensorNode.FloatGrammar
import SensorNode.DoubleText
import SensorNode.WireFormat
import SensorNode.TextRows
import SensorNode.ConfigLoad
import SensorNode.UrlUpdater
import SensorNode.UrlAgreement
import SensorNode.UpdateHistory
import SensorNode.UploadReload
import SensorNode.CheckedWord
import SensorNode.TemperatureOrder
import SensorNode.Bmp180Temperature
import SensorNode.Bmp180Pressure
import SensorNode.Dht11Module
import SensorNode.Dht11Decoding
import SensorNode.YuyvConversion
import SensorNode.BitPolynomial
import SensorNode.Htu21dReading
import SensorNode.FieldLoader
import SensorNode.ConfigReload
import SensorNode.FrameChronology
import SensorNode.FrameDelivery
import SensorNode.TornAppend
import SensorNode.FrameReplay
import SensorNode.Dht11Polling
import SensorNode.FrameRelease
import SensorNode.CaptureRecovery
import SensorNode.StoreMemory
import SensorNode.DerivedHistory
import SensorNode.LastSetting
import SensorNode.IntegerText
import SensorNode.ClientConfig
import SensorNode.ClientFormat
import SensorNode.Dht11Client
import SensorNode.BinaryValue
import SensorNode.DerivedPoles
import SensorNode.BinaryRounding
import SensorNode.BinaryArithmetic
import SensorNode.DecimalTransit
import SensorNode.ReadingTransit
import SensorNode.SensorAccuracy
import SensorNode.DriverAccuracy
import SensorNode.CollectorDelivery
import SensorNode.CaptureCommand
import SensorNode.UploadLoop
