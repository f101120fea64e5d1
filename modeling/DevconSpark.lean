import DevconSpark.CboxLaws
import DevconSpark.Runs
import DevconSpark.StateMachine
import DevconSpark.Gate
import DevconSpark.CommandLaws
import DevconSpark.SynchronizationLaws
import DevconSpark.PyNumber
import DevconSpark.PyValue
import DevconSpark.Descriptors
import DevconSpark.TimeUtils
import DevconSpark.Sequence
import DevconSpark.SequenceLaws
import DevconSpark.SparkApi
import DevconSpark.ApiGate
import DevconSpark.Binary
import DevconSpark.Processor
import DevconSpark.WalkLaws
import DevconSpark.Content
import DevconSpark.RoundTrip
import DevconSpark.StatusLaws
import DevconSpark.LinkLaws
import DevconSpark.MqttConnection
import DevconSpark.MqttLaws
import DevconSpark.Paths
import DevconSpark.PatchLaws
import DevconSpark.MaskLaws
import DevconSpark.NameLaws
import DevconSpark.SavingLaws
import DevconSpark.ReturnLaws
import DevconSpark.ApiRuns
import DevconSpark.DeleteLaws
import DevconSpark.BackupLaws
import DevconSpark.DatastoreSettings
import DevconSpark.Overwrites
import DevconSpark.SettingsLaws
import DevconSpark.BlockAnalysis
import DevconSpark.ClaimLaws
import DevconSpark.RelationLaws
import DevconSpark.Ymodem
import DevconSpark.YmodemLaws
import DevconSpark.LineErrors
import DevconSpark.NotationLaws
import DevconSpark.DurationLaws
import DevconSpark.StreamConnection
import DevconSpark.HttpBlocks
import DevconSpark.PublishLaws
import DevconSpark.Codec
import DevconSpark.Registry
import DevconSpark.MockConnection
import DevconSpark.MockLaws
import DevconSpark.Commands
import DevconSpark.Mirrors
import DevconSpark.MirrorLaws
import DevconSpark.Mocked
import DevconSpark.MockAnswers
import DevconSpark.MockedLaws
import DevconSpark.Handshake
import DevconSpark.MockHandshake
import DevconSpark.Backoff
import DevconSpark.ConnectionHandler
import DevconSpark.HandlerRefinement
import DevconSpark.Overlaps
import DevconSpark.Restores
import DevconSpark.Broadcast
import DevconSpark.BroadcastLaws
import DevconSpark.PayloadLaws
import DevconSpark.OtaClient
import DevconSpark.OtaLaws
import DevconSpark.Updater
import DevconSpark.Flasher
import DevconSpark.RestoredLines
import DevconSpark.RestoredBlocks
import DevconSpark.HandingBack
