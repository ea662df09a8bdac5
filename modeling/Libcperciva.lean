import Libcperciva.Events.LoopProgress
import Libcperciva.Netbuf.ReadRuns
import Libcperciva.Netbuf.ReadCancel
import Libcperciva.NetworkSsl.SslStatus
import Libcperciva.NetworkSsl.SslStart
import Libcperciva.NetworkSsl.SslWakeup
import Libcperciva.Network.ConnectRuns
import Libcperciva.Crypto.AesctrStream
import Libcperciva.Crypto.EntropyRuns
import Libcperciva.Crypto.DhAgreement
import Libcperciva.Alg.Crc32cStream
import Libcperciva.Alg.Md5Sha1Stream
import Libcperciva.Http.HttpRefines
import Libcperciva.Datastruct.ElasticarrayRuns
import Libcperciva.Datastruct.ElasticqueueRuns
import Libcperciva.Datastruct.SeqptrmapRuns
import Libcperciva.Datastruct.MpoolRuns
import Libcperciva.Netbuf.WriteFailures
import Libcperciva.Events.NetworkScan
import Libcperciva.Events.TimerRuns
import Libcperciva.Util.ParsenumContract
import Libcperciva.Util.SockRoundTrip
import Libcperciva.Util.HumansizeFormat
import Libcperciva.Util.B64RoundTrip
import Libcperciva.Util.ReadpassFileContract
import Libcperciva.Events.ImmediateRuns
import Libcperciva.Datastruct.SeqptrmapMemory
import Libcperciva.Lib.Json
import Libcperciva.Util.JsonFind
import Libcperciva.Util.GetoptModel
import Libcperciva.Util.GetoptRuns
import Libcperciva.Network.ReadRuns
import Libcperciva.Network.WriteRuns
import Libcperciva.Intrinsics.X86
import Libcperciva.Crypto.AesniModel
import Libcperciva.Crypto.AesniCipher
import Libcperciva.Crypto.AesArmModel
import Libcperciva.Crypto.AesArmCipher
import Libcperciva.Crypto.AesModel
import Libcperciva.Crypto.AesctrAes
import Libcperciva.Alg.Sha256Sse2Model
import Libcperciva.Lib.Fips180Lanes
import Libcperciva.Intrinsics.X86Lanes
import Libcperciva.Alg.Sha256ShaniModel
import Libcperciva.Alg.Sha256Sse2Transform
import Libcperciva.Alg.Sha256ShaniTransform
import Libcperciva.Alg.Sha256ArmModel
import Libcperciva.Alg.Sha256ArmTransform
import Libcperciva.Alg.Sha256Hwaccel
import Libcperciva.Http.HttpWire
