import MeshPigeon.Store.Fifo
import MeshPigeon.Framing.Framing
import MeshPigeon.Framing.Codec
import MeshPigeon.Framing.Reader
import MeshPigeon.Core.Messages
import MeshPigeon.Core.CommandProcessor
import MeshPigeon.Core.Responses
import MeshPigeon.Core.Run
import MeshPigeon.Core.Gate
import MeshPigeon.Core.Rotation
import MeshPigeon.Core.Transmit
import MeshPigeon.Core.Ledger
import MeshPigeon.Core.Sessions
import MeshPigeon.Store.Twin
import MeshPigeon.Core.Confidential
import MeshPigeon.Transport.Wifi
import MeshPigeon.Transport.WifiStream
import MeshPigeon.Transport.Esp32Ble
import MeshPigeon.Transport.Esp32Links
import MeshPigeon.Transport.Nrf52Ble
import MeshPigeon.Transport.Nrf52Links
import MeshPigeon.Core.Budget
import MeshPigeon.Core.Correlation
import MeshPigeon.Core.Notices
import MeshPigeon.Core.Paging
import MeshPigeon.Core.Reboot
import MeshPigeon.Framing.Stream
import MeshPigeon.Lib.Trace
import MeshPigeon.Radio.Agreement
import MeshPigeon.Transport.Esp32Stream
import MeshPigeon.Transport.Nrf52Framed
import MeshPigeon.Transport.WifiAnswers
import MeshPigeon.Framing.Drain
import MeshPigeon.Core.Scratch
import MeshPigeon.Core.Retune
import MeshPigeon.Core.DeviceWrite
import MeshPigeon.Core.Flash
import MeshPigeon.Core.History
import MeshPigeon.Radio.Part
import MeshPigeon.Transport.Nrf52Queue
import MeshPigeon.Core.OpenDevice
import MeshPigeon.Framing.Bodies
import MeshPigeon.Framing.Damage
import MeshPigeon.Core.RecordBytes
import MeshPigeon.Store.Accounting
import MeshPigeon.Store.Checked
import MeshPigeon.Transport.WifiLadder
import MeshPigeon.Transport.RxFifo
import MeshPigeon.Transport.RxStream
import MeshPigeon.Core.Survival
import MeshPigeon.Core.Wire
import MeshPigeon.Nanopb.Compat
import MeshPigeon.Sim.SimRadio
import MeshPigeon.Sim.Air
