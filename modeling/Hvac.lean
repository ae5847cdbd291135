import Hvac.Lib.Machine
import Hvac.Lib.History
import Hvac.Lib.Buffer
import Hvac.Lib.Checksum
import Hvac.Lib.Store
import Hvac.Lib.Ring
import Hvac.Lib.ShiftRegister
import Hvac.Lib.Lookup
import Hvac.Lib.Slist
import Hvac.Lib.Calendar
import Hvac.Lib.Prescaler
import Hvac.Lib.Dlist
import Hvac.Lib.Raster
import Hvac.Lib.Spi
import Hvac.Types
import Hvac.Crc
import Hvac.Clock
import Hvac.Ntc
import Hvac.Communicate
import Hvac.SendList
import Hvac.State
import Hvac.Control
import Hvac.DataLayer
import Hvac.Menu
import Hvac.Storage
import Hvac.Run
import Hvac.RegisterFile
import Hvac.Serial
import Hvac.Framing
import Hvac.Decision
import Hvac.Answers
import Hvac.Gating
import Hvac.Invariants
import Hvac.Interlock
import Hvac.Traffic
import Hvac.Persistence
import Hvac.FailSafe
import Hvac.CtrlWord
import Hvac.Thermostat
import Hvac.FrameScope
import Hvac.Reply
import Hvac.Broadcast
import Hvac.Reception
import Hvac.Bus
import Hvac.Addressing
import Hvac.Connection
import Hvac.Schedule
import Hvac.Registration
import Hvac.MultiRegister
import Hvac.TimeBroadcast
import Hvac.Button
import Hvac.ButtonEvents
import Hvac.TempSource
import Hvac.Staging
import Hvac.Spells
import Hvac.Reversal
import Hvac.Ticks
import Hvac.BurstErrors
import Hvac.ModuleId
import Hvac.Interpolation
import Hvac.SensorRange
import Hvac.SampleWindow
import Hvac.CutOff
import Hvac.SaveRetry
import Hvac.Refusals
import Hvac.MenuEdit
import Hvac.DateConversion
import Hvac.ClockEdit
import Hvac.Gpio
import Hvac.Main
import Hvac.TimerPeriod
import Hvac.Locate
import Hvac.TempText
import Hvac.Oled
import Hvac.Navigation
import Hvac.SendMemory
import Hvac.Screen
import Hvac.Drawing
import Hvac.Glyphs
import Hvac.Panel
import Hvac.Pages
import Hvac.Firmware
import Hvac.Lib.Progress
import Hvac.Requests
import Hvac.Idle
import Hvac.Recovery
import Hvac.Transactions
import Hvac.Timekeeping
import Hvac.Turnaround
