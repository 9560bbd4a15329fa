import KTools.Fru.Files
import KTools.Fru.Obliging
import KTools.Fru.Reads
import KTools.Fru.Refusals
import KTools.Fru.Runs
import KTools.Fru.Stuck
import KTools.Fru.Transfer
import KTools.Fru.Writes
import KTools.Guest.MonitorTimer
import KTools.Hpm.LostBlocks
import KTools.Hpm.Records
import KTools.Ktime.HalfArmed
import KTools.Ktime.Handlers
import KTools.Ktime.Lifecycle
import KTools.Ktime.Module
import KTools.Ktime.Parser
import KTools.Ktime.RoundTrip
import KTools.Ktime.Safety
import KTools.Ktime.Threshold
import KTools.Lan.Answer
import KTools.Lan.Attribution
import KTools.Lan.Build
import KTools.Lan.Duplicate
import KTools.Lan.Request
import KTools.Lan.SessionNumbers
import KTools.Lanplus.Answers
import KTools.Lanplus.Attribution
import KTools.Lanplus.Bounds
import KTools.Lanplus.Build
import KTools.Lanplus.BuildMemory
import KTools.Lanplus.CipherSuites
import KTools.Lanplus.Encrypt
import KTools.Lanplus.Handshake
import KTools.Lanplus.Hpm2
import KTools.Lanplus.Lifetime
import KTools.Lanplus.MessageRoundTrip
import KTools.Lanplus.Open
import KTools.Lanplus.Receive
import KTools.Lanplus.RequestInvariant
import KTools.Lanplus.RequestList
import KTools.Lanplus.RequestRefinement
import KTools.Lanplus.Saved
import KTools.Lanplus.Send
import KTools.Lanplus.Stale
import KTools.Lanplus.Transparent
import KTools.Lanplus.Types
import KTools.Lib.Bytes
import KTools.Lib.Grid
import KTools.Lib.Heap
import KTools.Lib.Keeps
import KTools.Lib.StopAndWait
import KTools.Lib.Triple
import KTools.PageCache.Lookup
import KTools.PageCache.Stat
import KTools.Schedule.Wakeup
import KTools.Script.ConfigCompare
import KTools.Script.CutPatches
import KTools.Sdr.Complete
import KTools.Sdr.Genuine
import KTools.Sdr.Reading
import KTools.Sdr.Records
import KTools.Sdr.Repository
import KTools.Serial.BasicAnswer
import KTools.Serial.BasicFrames
import KTools.Serial.BasicMode
import KTools.Serial.BasicRequest
import KTools.Sol.Acknowledged
import KTools.Sol.Console
import KTools.Sol.ExactlyOnce
import KTools.Sol.Exit
import KTools.Sol.Frame
import KTools.Sol.ReceiveOnly
import KTools.Sol.Receiver
import KTools.Sol.RedPill
import KTools.Sol.SetParam
import KTools.Sol.Siblings
import KTools.Trace.PrintTime
