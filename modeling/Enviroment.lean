import Enviroment.Lib.Trace
import Enviroment.Lib.RingBuffer
import Enviroment.Lib.Blocks
import Enviroment.Lib.Text
import Enviroment.Lib.Lfsr
import Enviroment.Lib.Bitmap
import Enviroment.Lib.Poll
import Enviroment.Lib.Segments
import Enviroment.Lib.WakeUp
import Enviroment.Lib.Alarms
import Enviroment.Lib.MarkedQueues
import Enviroment.Kernel.Types
import Enviroment.Kernel.Ipc
import Enviroment.Kernel.Printf
import Enviroment.Kernel.Delay
import Enviroment.Kernel.Timer
import Enviroment.Kernel.Scheduler
import Enviroment.Kernel.Turns
import Enviroment.Kernel.Thread
import Enviroment.Kernel.Mailbox
import Enviroment.Kernel.Mutex
import Enviroment.Kernel.Heap
import Enviroment.Kernel.Alloc
import Enviroment.Kernel.Owners
import Enviroment.Serial.Fifo
import Enviroment.Serial.Notice
import Enviroment.Sensor.Frame
import Enviroment.Sensor.Reply
import Enviroment.Sensor.Crc
import Enviroment.Sensor.Line
import Enviroment.Sensor.Store
import Enviroment.Sensor.Sample
import Enviroment.Threads.System
import Enviroment.Threads.Mails
import Enviroment.Threads.Handshake
import Enviroment.Threads.Boot
import Enviroment.Modem.Report
import Enviroment.Modem.Client
import Enviroment.Modem.Framing
import Enviroment.Modem.Exec
import Enviroment.Modem.Handler
import Enviroment.Modem.Replies
import Enviroment.Modem.Http
import Enviroment.Modem.Commands
import Enviroment.Modem.SendData
import Enviroment.Modem.Query
import Enviroment.Modem.Signal
import Enviroment.Modem.Lock
import Enviroment.Modem.Receive
import Enviroment.Modem.Response
import Enviroment.Led.Font
import Enviroment.Led.Draw
import Enviroment.Led.Blit
import Enviroment.Led.Chese
import Enviroment.Led.Screen
import Enviroment.Led.Legible
import Enviroment.Led.Scan
