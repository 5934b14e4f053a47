import LedLamp.Lamp.Truthful
import LedLamp.Conc.Guarantee
import LedLamp.Mqtt.Config
import LedLamp.Mqtt.Calls
import LedLamp.Mqtt.System
import LedLamp.Mqtt.Footprint
import LedLamp.Mqtt.Discipline
import LedLamp.Mqtt.Release
import LedLamp.Mqtt.FailOff
import LedLamp.Mqtt.Rules
import LedLamp.Mqtt.Reject
import LedLamp.Mqtt.Gate
import LedLamp.Mqtt.Generation
import LedLamp.Conc.Exec
import LedLamp.TbApplication.Calls
import LedLamp.TbApplication.System
import LedLamp.TbApplication.Footprint
import LedLamp.TbApplication.Disconnect
import LedLamp.TbApplication.Requests
import LedLamp.TbApplication.Handlers
import LedLamp.TbApplication.Contract
import LedLamp.TbApplication.Fields
import LedLamp.Lamp.Resources
import LedLamp.Lamp.FailedInit
import LedLamp.AppConfig.Schema
import LedLamp.AppConfig.Load
import LedLamp.AppConfig.Recovery
import LedLamp.AppConfig.RoundTrip
import LedLamp.AppMain.Identity
import LedLamp.AppMain.Session
import LedLamp.AppMain.Gate
import LedLamp.AppMain.Connection
import LedLamp.AppMain.Reprovision
import LedLamp.TbApplication.Agreement
import LedLamp.Lamp.Failures
import LedLamp.Lamp.Colours
import LedLamp.JsonSyntax
import LedLamp.JsonReader
import LedLamp.JsonNul
import LedLamp.JsonMembers
import LedLamp.Mqtt.Grammar
import LedLamp.Mqtt.Acceptance
import LedLamp.Mqtt.Loading
import LedLamp.TbApplication.States
import LedLamp.JsonWriter
import LedLamp.TbApplication.Attributes
import LedLamp.TbApplication.OtaUpdates
import LedLamp.TbApplication.FirmwareHint
import LedLamp.AppConfig.Acceptance
import LedLamp.AppConfig.Migration
import LedLamp.CBuffer
import LedLamp.Mqtt.Bounds
import LedLamp.Mqtt.Applied
import LedLamp.JsonValid
import LedLamp.NulScanners
import LedLamp.TbProvisioning.Persisting
import LedLamp.TbProvisioning.Loading
import LedLamp.TbApplication.Telemetry
import LedLamp.Lamp.Duty
import LedLamp.AppMain.FactoryReset
import LedLamp.AppMain.Supervise
import LedLamp.Conc.Feeds
import LedLamp.AppMain.Watchdog
import LedLamp.AppConfig.Reading
import LedLamp.Lamp.Threads
import LedLamp.AppConfig.Backups
import LedLamp.Mqtt.LazyRefines
import LedLamp.AppMain.Refines
import LedLamp.AppMain.Provisioned
