import BoxFirmware.W25qxx
import BoxFirmware.Malloc
import BoxFirmware.TcpClient
import BoxFirmware.MqttConnection
import BoxFirmware.MqttReceive
import BoxFirmware.MqttHeap
import BoxFirmware.MqttCommand
import BoxFirmware.MqttQos2
import BoxFirmware.Credentials
import BoxFirmware.OsMbox
import BoxFirmware.Usart
import BoxFirmware.Dht11Task
import BoxFirmware.Dht11Frames
import BoxFirmware.BoxTiming
import BoxFirmware.Commit
import BoxFirmware.EthTx
import BoxFirmware.EthRx
import BoxFirmware.MallocTasks
import BoxFirmware.MqttTwoRuns
import BoxFirmware.TcpNetconn
import BoxFirmware.LwipComm
import BoxFirmware.GetGps
import BoxFirmware.GpsRecord
import BoxFirmware.CivilTime
import BoxFirmware.GpsClock
import BoxFirmware.GpsCalls
import BoxFirmware.PayloadOut
import BoxFirmware.DeviceInfo
import BoxFirmware.DoorAlarm
import BoxFirmware.WorkMode
import BoxFirmware.MallocFit
import BoxFirmware.TcpReceive
import BoxFirmware.TcpRetry
import BoxFirmware.ValueStore
import BoxFirmware.FrameText
import BoxFirmware.TcpHeap
import BoxFirmware.MqttSocket
import BoxFirmware.MqttSends
import BoxFirmware.MqttSearch
import BoxFirmware.MqttAction
import BoxFirmware.FanCapture
import BoxFirmware.Realloc
import BoxFirmware.SysArch
import BoxFirmware.SysMbox
import BoxFirmware.FanWarn
import BoxFirmware.Crc
import BoxFirmware.Sht30
import BoxFirmware.CodeTable
import BoxFirmware.Loop
import BoxFirmware.SortedSearch
import BoxFirmware.U2gbk
import BoxFirmware.Delay
import BoxFirmware.Stmflash
import BoxFirmware.LedsCgi
import BoxFirmware.BitTable
import BoxFirmware.Ucos
import BoxFirmware.UcosBoot
import BoxFirmware.UcosQueue
import BoxFirmware.UcosTime
import BoxFirmware.MemBlocks
import BoxFirmware.MqttReadBack
import BoxFirmware.MqttReadnb
import BoxFirmware.DueList
import BoxFirmware.TcpipTimers
import BoxFirmware.IpFrag
import BoxFirmware.IpReassTable
