import Rpi5Modules.Cyw.Backplane
import Rpi5Modules.Cyw.CtrlResponse
import Rpi5Modules.Cyw.Escan
import Rpi5Modules.Cyw.TxPaths
import Rpi5Modules.Eth.Defs
import Rpi5Modules.Eth.RxRing
import Rpi5Modules.Eth.TxRing
import Rpi5Modules.Lib.Laps
import Rpi5Modules.Eth.TxInvariant
import Rpi5Modules.Eth.TxHandoff
import Rpi5Modules.Eth.FallbackPoll
import Rpi5Modules.Eth.Detach
import Rpi5Modules.Pcie.FilterPair
import Rpi5Modules.Cyw.OneCaller
import Rpi5Modules.Cyw.IoctlMatch
import Rpi5Modules.Cyw.TxCredit
import Rpi5Modules.Cyw.Detach
import Rpi5Modules.Cyw.RecvFraming
import Rpi5Modules.Cyw.Ceiling
import Rpi5Modules.Cyw.FwImages
import Rpi5Modules.Cyw.Agree
import Rpi5Modules.Lib.TailQueue
import Rpi5Modules.Cyw.TxQueue
import Rpi5Modules.Cyw.Newstate
import Rpi5Modules.Cyw.Join
import Rpi5Modules.Cyw.Link
import Rpi5Modules.Cyw.Keys
import Rpi5Modules.Cyw.Scan
import Rpi5Modules.Eth.Mac
import Rpi5Modules.Eth.Port
import Rpi5Modules.Eth.RxFilter
import Rpi5Modules.Eth.Speed
import Rpi5Modules.Eth.UserIo
import Rpi5Modules.Fan.Defs
import Rpi5Modules.Fan.Levels
import Rpi5Modules.Fan.Duty
import Rpi5Modules.Cyw.Erom
import Rpi5Modules.Cyw.EromTable
import Rpi5Modules.Cyw.Events
import Rpi5Modules.Cyw.IeChain
import Rpi5Modules.Cyw.ScanSizes
import Rpi5Modules.Cyw.RecvBounds
import Rpi5Modules.Cyw.F2Write
import Rpi5Modules.Cyw.DataFraming
import Rpi5Modules.Cyw.BlockWrite
import Rpi5Modules.Cyw.Nvram
import Rpi5Modules.Cyw.ClmLoad
import Rpi5Modules.Cyw.ChanspecCache
import Rpi5Modules.Cyw.RxDemux
import Rpi5Modules.Eth.RxDelivery
import Rpi5Modules.Cyw.RxFail
import Rpi5Modules.Cyw.ScanSync
import Rpi5Modules.Cyw.FwDownload
import Rpi5Modules.Eth.MacHash
import Rpi5Modules.Pwm.Config
import Rpi5Modules.Pwm.Divider
import Rpi5Modules.Lib.Components
import Rpi5Modules.Pwm.RoundTrip
import Rpi5Modules.Gpio.Defs
import Rpi5Modules.Gpio.Pins
import Rpi5Modules.Lib.CString
import Rpi5Modules.Gpio.LineNames
import Rpi5Modules.Eth.Fdt
import Rpi5Modules.Eth.FdtSearch
import Rpi5Modules.Eth.FdtBuffers
import Rpi5Modules.Lib.BusyPort
import Rpi5Modules.Lib.Mdio
import Rpi5Modules.Cyw.Attach
import Rpi5Modules.Cyw.FilFrame
import Rpi5Modules.Cyw.FilWire
import Rpi5Modules.Eth.LinkWatch
import Rpi5Modules.Eth.PhyReset
import Rpi5Modules.Eth.Stats
import Rpi5Modules.Pcie.Attach
import Rpi5Modules.Eth.DmaMaps
import Rpi5Modules.Cyw.EventFlow
import Rpi5Modules.Fan.Cooling
