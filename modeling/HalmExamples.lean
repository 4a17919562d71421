import HalmExamples.Foundation.ByteOrder
import HalmExamples.Foundation.Region
import HalmExamples.EthRaw.Device
import HalmExamples.EthRaw.Safety
import HalmExamples.EthRaw.Host
import HalmExamples.EthRaw.RoundTrip
import HalmExamples.EthRaw.Transfer
import HalmExamples.Foundation.Schedule
import HalmExamples.Sct.SofTimer
import HalmExamples.Sct.SofInterleaving
import HalmExamples.Sct.SofDurations
import HalmExamples.FlashCfi.Chip
import HalmExamples.FlashCfi.Driver
import HalmExamples.Foundation.Simulation
import HalmExamples.FlashCfi.Refinement
import HalmExamples.FlashTest.MemoryTest
import HalmExamples.FlashTest.Firmware
import HalmExamples.Clock.PllSearch
import HalmExamples.Clock.Tree
import HalmExamples.Clock.Limits
import HalmExamples.UsbUac.Program
import HalmExamples.UsbUac.Ownership
import HalmExamples.UsbUac.RateChange
import HalmExamples.EthRaw.Decoder
import HalmExamples.Foundation.Memory
import HalmExamples.AdcStream.Program
import HalmExamples.AdcStream.Separation
import HalmExamples.UsbUac.Queues
import HalmExamples.UsbUac.Playback
import HalmExamples.I2sEcho.Program
import HalmExamples.I2sEcho.Echo
import HalmExamples.Can.Program
import HalmExamples.Can.Reception
import HalmExamples.Foundation.Channel
import HalmExamples.UsbCdc.Program
import HalmExamples.UsbCdc.Echo
import HalmExamples.FlashCfi.Checks
import HalmExamples.Foundation.Attempt
import HalmExamples.Sct.Block
import HalmExamples.Sct.Drivers
import HalmExamples.Sct.Constructors
import HalmExamples.Sct.Teardown
import HalmExamples.Clock.PllReach
import HalmExamples.Clock.CrystalSearch
import HalmExamples.Clock.PllOptimum
import HalmExamples.Foundation.Reciprocal
import HalmExamples.Sct.SofRatio
import HalmExamples.Foundation.Coverage
import HalmExamples.EthRaw.Reception
import HalmExamples.ExternalMemory.Program
import HalmExamples.ExternalMemory.Detection
import HalmExamples.MmcSd.Program
import HalmExamples.MmcSd.Range
import HalmExamples.Foundation.Footprint
import HalmExamples.Sct.Fields
import HalmExamples.Sct.TwoTimers
import HalmExamples.Sct.Halves
import HalmExamples.Serial.Program
import HalmExamples.Serial.Echo
import HalmExamples.Foundation.TextBuffer
import HalmExamples.Foundation.Numeral
import HalmExamples.Serial.HexDump
import HalmExamples.MmcSd.Marker
import HalmExamples.EmcFlash.MemoryTest
import HalmExamples.Foundation.CyclicCounter
import HalmExamples.Sct.AdcTiming
import HalmExamples.TimerFactory.Program
import HalmExamples.TimerFactory.Elapsed
import HalmExamples.Capture.Program
import HalmExamples.Capture.Period
import HalmExamples.MakeExample.Program
import HalmExamples.MakeExample.Options
import HalmExamples.Foundation.Words
import HalmExamples.AdcStream.Output
import HalmExamples.UsbUac.Capacity
import HalmExamples.EthRaw.MainLoop
import HalmExamples.Foundation.Polling
import HalmExamples.EthRaw.Phy
import HalmExamples.Foundation.Supply
import HalmExamples.Clock.Network
import HalmExamples.Clock.Peripherals
import HalmExamples.Clock.Continuity
import HalmExamples.Clock.Suspend
import HalmExamples.Clock.Feeding
import HalmExamples.Clock.SafeOrder
import HalmExamples.Clock.Starvation
import HalmExamples.Foundation.Playback
import HalmExamples.Playback.Transmitter
import HalmExamples.Playback.Tone
import HalmExamples.Playback.Dac
import HalmExamples.EthRaw.Script
import HalmExamples.I2cMemory.Program
import HalmExamples.I2cMemory.Rounds
import HalmExamples.Foundation.LastIndex
import HalmExamples.UsbMsc.Program
import HalmExamples.UsbMsc.Mounting
import HalmExamples.I2cLink.Program
import HalmExamples.I2cLink.Display
import HalmExamples.UsbCdc.Progress
import HalmExamples.TimerFactory.Restarts
import HalmExamples.MmcSd.Contents
import HalmExamples.DmaMemcopy.Program
import HalmExamples.DmaMemcopy.Rounds
import HalmExamples.Foundation.Wiring
import HalmExamples.Eeprom.Program
import HalmExamples.Eeprom.Detection
